import FcamGateway.Calendar
import FcamGateway.CreditIsolation
import FcamGateway.ForwardExchange

/-! A refresh round over a database that accepts every statement. The round asks about every due key
once, batch by batch, and puts off each of them: to a later date where the key is still good, for
ever where it is not. Rows that are not due stay as they are. -/
namespace FcamGateway.RefreshRounds
open Prog Credits CreditRefresh
open Forwarder (Exchange)

set_option linter.unusedSectionVars false

variable {R : Type} [Field R] [LinearOrder R]

/-- The minutes that `calculate_next_refresh_time` may add. -/
def intervals (config : CreditMonitoringConfig) : List Int :=
  [config.fixedRefreshIntervalMinutes, config.smartRefresh.highUsageInterval,
    config.smartRefresh.mediumUsageInterval, config.smartRefresh.normalUsageInterval,
    config.smartRefresh.lowUsageInterval, orDefault config.smartRefresh.abundantMinIntervalMinutes 120]

def Spaced (config : CreditMonitoringConfig) : Prop := ∀ minutes ∈ intervals config, 0 < minutes

/-- The dates that a round computes from a reading of the clock exist. -/
structure Roomy (config : CreditMonitoringConfig) (retry : Int) (reading : Instant) : Prop where
  minutes : ∀ minutes ∈ retry :: intervals config, (reading.addSeconds? (60 * minutes)).isSome
  month : reading.startOfNextMonth?.isSome

/-- The statement succeeds. -/
def Succeeds : Event (Op R) (Reply R) → Prop
  | ⟨.listKeys, reply⟩ => reply ≠ none
  | ⟨.findKey _, reply⟩ => reply ≠ none
  | ⟨.commit _, written⟩ => written = true
  | ⟨.flushSnapshot _, id⟩ => id ≠ none
  | ⟨.clearRefresh _, reply⟩ => reply = some true
  | _ => True

/-- A clock that never goes back. -/
def Ticks (config : CreditMonitoringConfig) (retry : Int) (before : Instant) :
    Event (Op R) (Reply R) → Instant → Prop
  | ⟨.now, reading⟩, after => before ≤ reading ∧ after = reading ∧ Roomy config retry reading
  | _, after => after = before

/-- The database and the clock of a round. -/
def Obliging (config : CreditMonitoringConfig) (retry : Int) (before : Store × Instant)
    (event : Event (Op R) (Reply R)) (after : Store × Instant) : Prop :=
  before.1.moves event after.1 ∧ Succeeds event ∧ Ticks config retry before.2 event after.2

/-- The keys that were asked about. -/
def asked (events : Exchange R) : List Nat := events.flatMap fun event => probed event.op

/-- How the row of a probed key stands after a result of the kind. -/
def Settled (now retryAt : Instant) (row : KeyColumns) : Kind → Prop
  | .success => terminal row = false ∧ ∃ next, row.nextRefreshAt = some next ∧ now < next
  | .cooling => terminal row = false ∧ row.nextRefreshAt = some retryAt
  | .error => terminal row = false ∧ row.nextRefreshAt = some retryAt
  | .invalid => terminal row = true ∧ row.nextRefreshAt = none
  | .decryptFailed => terminal row = true ∧ row.nextRefreshAt = none

variable {config : AppConfig R} {foreign : Foreign} {masterKey : Bytes} {retry : Int}
  {now retryAt clock : Instant} {store : Store} {seen later : Exchange R} {key : KeyObject}
  {row : KeyColumns} {result : CreditFetchResult} {id : Nat} {base : Table KeyColumns}
  {finished : List (Nat × Bytes)} {columns : KeyColumns}

/-! ### Dates -/

theorem lt_addSeconds {seconds : Int} {next : Instant} (positive : 0 < seconds)
    (found : clock.addSeconds? seconds = some next) : clock < next := by
  simp only [Instant.addSeconds?] at found
  split at found
  · cases found
    exact Int.lt_add_of_pos_right clock (Int.mul_pos positive (by decide))
  · cases found

/-- A key that is good is put off to a later date. -/
theorem nextRefresh_later (row : KeyColumns) {monitoring : CreditMonitoringConfig} (spaced : Spaced monitoring)
    (roomy : Roomy monitoring retry clock) (live : terminal row = false) {remaining plan : Int}
    (left : row.cachedRemainingCredits = some remaining) (whole : row.cachedPlanCredits = some plan) :
    ∃ next, nextRefreshTime monitoring row clock = some (some next) ∧ clock < next := by
  have added (minutes : Int) (member : minutes ∈ intervals monitoring) :
      ∃ next, (clock.addSeconds? (60 * minutes)).map some = some (some next) ∧ clock < next := by
    obtain ⟨next, found⟩ :=
      Option.isSome_iff_exists.mp (roomy.minutes minutes (List.mem_cons_of_mem _ member))
    have positive := spaced minutes member
    exact ⟨next, by rw [found, Option.map_some], lt_addSeconds (by omega) found⟩
  unfold nextRefreshTime
  rw [left, whole, if_neg (by simpa [terminal] using live)]
  dsimp only
  split
  · exact added _ (by simp [intervals])
  · split
    · obtain ⟨next, found⟩ := Option.isSome_iff_exists.mp roomy.month
      exact ⟨next, by rw [found, Option.map_some], Instant.lt_startOfNextMonth found⟩
    · apply added
      have usage : (if usageAbove remaining plan 9 = true then monitoring.smartRefresh.highUsageInterval
          else if usageAbove remaining plan 7 = true then monitoring.smartRefresh.mediumUsageInterval
          else if usageAbove remaining plan 5 = true then monitoring.smartRefresh.normalUsageInterval
          else monitoring.smartRefresh.lowUsageInterval) ∈ intervals monitoring := by
        split
        · simp [intervals]
        · split
          · simp [intervals]
          · split <;> simp [intervals]
      split
      · simp [intervals]
      · split
        · rcases max_choice _ (orDefault monitoring.smartRefresh.abundantMinIntervalMinutes 120)
            with same | same
          · exact same.symm ▸ usage
          · rw [same]
            simp [intervals]
        · exact usage

/-! ### One result -/

/-- The exchange went on without a question to the credit endpoint. -/
structure Quiet (seen later : Exchange R) : Prop where
  grown : seen <+: later
  asked : asked later = asked seen

theorem Quiet.refl (seen : Exchange R) : Quiet seen seen := ⟨List.prefix_refl seen, rfl⟩

theorem Quiet.then (quiet : Quiet seen later) (op : Op R) (reply : Reply R op)
    (unprobed : probed op = []) : Quiet seen (later ++ [⟨op, reply⟩]) := by
  refine ⟨quiet.grown.trans (List.prefix_append _ _), ?_⟩
  rw [RefreshRounds.asked, List.flatMap_append, List.flatMap_singleton, unprobed, List.append_nil]
  exact quiet.asked

theorem Quiet.trans {last : Exchange R} (first : Quiet seen later) (second : Quiet later last) :
    Quiet seen last :=
  ⟨first.grown.trans second.grown, second.asked.trans first.asked⟩

abbrev obliging (config : AppConfig R) (retry : Int) :
    Monitor ((Store × Instant) × Exchange R) (Op R) (Reply R) :=
  .logging (Obliging config.creditMonitoring retry)

theorem wp_flushed {post : Except Exn Nat → (Store × Instant) × Exchange R → Prop}
    (snapshot : CreditSnapshot)
    (ok : ∀ id, post (.ok id) ((store, clock), seen ++ [⟨.flushSnapshot snapshot, some id⟩])) :
    (flushSnapshot (R := R) snapshot).wp (obliging config retry) post ((store, clock), seen) := by
  refine (wp_logged _ _).mpr fun reply last moved => ?_
  obtain ⟨same, flushed, still⟩ := moved
  obtain rfl : last = (store, clock) := Prod.ext same still
  cases reply with
  | none => exact absurd rfl flushed
  | some id => exact ok id

/-- Applying a result to a good key. -/
theorem wp_applied {post : Except Exn KeyObject → (Store × Instant) × Exchange R → Prop}
    (spaced : Spaced config.creditMonitoring) (live : terminal key.current = false)
    (since : now ≤ clock)
    (ok : ∀ columns clock later, now ≤ clock → Quiet seen later → Applied result key.current columns →
      (result.kind = .success → ∃ next, columns.nextRefreshAt = some next ∧ now < next) →
        post (.ok { key with current := columns }) ((store, clock), later)) :
    (applyCreditFetchResult config key result).wp (obliging config retry) post
      ((store, clock), seen) := by
  have applied (fetchedAt : Instant) {clock : Instant} {start : Exchange R} (since : now ≤ clock)
      (quiet : Quiet seen start) (read : ∀ at_, result.fetchedAt = some at_ → fetchedAt = at_) :
      (applyFetchedAt config key result fetchedAt).wp (obliging config retry) post
        ((store, clock), start) := by
    have flushed (snapshot : CreditSnapshot) (id : Nat) :
        Quiet seen (start ++ [⟨.flushSnapshot snapshot, some id⟩]) :=
      quiet.then (.flushSnapshot snapshot) (some id) rfl
    unfold applyFetchedAt
    split <;> rename_i kind <;> simp only [bind_eq, pure_eq, wp_bind]
    · exact wp_flushed _ fun id => ok _ _ _ since (flushed _ id) (.decryptFailed kind)
        fun success => absurd (kind.symm.trans success) nofun
    · exact wp_flushed _ fun id => ok _ _ _ since (flushed _ id) (.invalid kind)
        fun success => absurd (kind.symm.trans success) nofun
    · exact wp_flushed _ fun id => ok _ _ _ since (flushed _ id) (.cooling kind fetchedAt read)
        fun success => absurd (kind.symm.trans success) nofun
    · refine wp_flushed _ fun id => (wp_logged _ _).mpr fun reading last moved => ?_
      obtain ⟨same, -, later, at_, roomy⟩ := moved
      obtain rfl : last = (store, reading) := Prod.ext same at_
      refine ok _ _ _ (since.trans later) ((flushed _ id).then .now reading rfl)
        (.success kind id fetchedAt _) fun _ => ?_
      obtain ⟨next, found, after⟩ := nextRefresh_later { key.current with
        cachedRemainingCredits := some result.remainingCredits
        cachedPlanCredits := some result.planCredits
        lastCreditSnapshotId := some id
        lastCreditCheckAt := some fetchedAt } spaced roomy live rfl rfl
      exact ⟨next, congrArg Option.join found, (since.trans later).trans_lt after⟩
    · exact wp_flushed _ fun id => ok _ _ _ since (flushed _ id) (.error kind)
        fun success => absurd (kind.symm.trans success) nofun
  unfold applyCreditFetchResult
  split <;> rename_i fetched
  · exact applied _ since (.refl seen) (by simp [fetched])
  · refine (wp_logged _ _).mpr fun reading last moved => ?_
    obtain ⟨same, -, later, at_, roomy⟩ := moved
    obtain rfl : last = (store, reading) := Prod.ext same at_
    exact applied _ (since.trans later) ((Quiet.refl seen).then .now reading rfl)
      (by simp [fetched])

/-- The commit of one row object as its row is. -/
theorem wp_stored {post : Except Exn Unit → (Store × Instant) × Exchange R → Prop} (site : Site)
    (found : store.keys.get? key.id = some key.loaded)
    (ok : ∀ last, last.keys.get? key.id = some key.current →
      (∀ other, other ≠ key.id → last.keys.get? other = store.keys.get? other) →
        post (.ok ()) ((last, clock), seen ++ [⟨.commit { site, keys := [key] }, true⟩])) :
    ((query (.commit { site, keys := [key] })).bind fun _ => (done () : Gateway R Unit)).wp
      (obliging config retry) post ((store, clock), seen) := by
  refine (wp_logged _ _).mpr fun reply last moved => ?_
  obtain ⟨⟨_, _, stored⟩ | ⟨written, _⟩, succeeded, still⟩ := moved
  · obtain rfl : reply = true := succeeded
    obtain rfl : last = (store.apply { site, keys := [key] }, clock) := Prod.ext stored still
    exact ok _ (Store.get_flushKey_loaded found) fun other different =>
      Store.get_flushKey_other different
  · exact absurd (written.symm.trans succeeded) nofun

/-- A key that the endpoint refuses for good is not asked about again. -/
theorem settled_condemned (applied : Applied result row columns)
    (condemned : result.kind = .decryptFailed ∨ result.kind = .invalid) :
    Settled now retryAt columns result.kind := by
  cases applied with
  | decryptFailed kind =>
    rw [kind]
    exact ⟨rfl, rfl⟩
  | invalid kind =>
    rw [kind]
    exact ⟨rfl, rfl⟩
  | cooling kind _ _ => simp [kind] at condemned
  | success kind _ _ _ => simp [kind] at condemned
  | error kind => simp [kind] at condemned

/-- Any other result leaves a good key good. -/
theorem live_applied (applied : Applied result row columns) (live : terminal row = false)
    (alive : ¬ (result.kind = .decryptFailed ∨ result.kind = .invalid)) : terminal columns = false := by
  cases applied with
  | decryptFailed kind => exact absurd (.inl kind) alive
  | invalid kind => exact absurd (.inr kind) alive
  | cooling _ _ _ =>
    obtain ⟨active, _⟩ := Bool.or_eq_false_iff.mp live
    have resting : PyText.lower "cooling" ∉ KeyPool.disabledStatuses := by decide
    exact Bool.or_eq_false_iff.mpr ⟨active, decide_eq_false resting⟩
  | success _ _ _ _ => exact live
  | error _ => exact live

/-- What applying one result comes to: it never raises, writes only its own row and settles it. -/
def Served (now retryAt : Instant) (result : CreditFetchResult) (store : Store) (seen : Exchange R) :
    Except Exn Unit → (Store × Instant) × Exchange R → Prop := fun outcome last =>
  outcome = .ok () ∧ Quiet seen last.2 ∧ now ≤ last.1.2 ∧
    (∃ row, last.1.1.keys.get? result.apiKeyId = some row ∧ Settled now retryAt row result.kind) ∧
      ∀ other, other ≠ result.apiKeyId → last.1.1.keys.get? other = store.keys.get? other

theorem wp_applyResult (spaced : Spaced config.creditMonitoring)
    (dated : now.addSeconds? (60 * retry) = some retryAt) (since : now ≤ clock)
    (found : store.keys.get? result.apiKeyId = some row) (live : terminal row = false) :
    (applyResult config now retry result).wp (obliging config retry)
      (Served now retryAt result store seen) ((store, clock), seen) := by
  have stored (columns : KeyColumns) {clock : Instant} {later : Exchange R} (since : now ≤ clock)
      (quiet : Quiet seen later) (settled : Settled now retryAt columns result.kind) :
      ((query (.commit { site := .creditResult, keys := [⟨result.apiKeyId, row, columns⟩] })).bind
        fun _ => (done () : Gateway R Unit)).wp (obliging config retry)
          (Served now retryAt result store seen) ((store, clock), later) :=
    wp_stored .creditResult found fun last own others =>
      ⟨rfl, quiet.then (.commit _) true rfl, since, ⟨columns, own, settled⟩, others⟩
  unfold applyResult
  simp only [bind_eq, pure_eq]
  refine (wp_logged _ _).mpr fun reply last moved => ?_
  obtain ⟨⟨same, missing | read⟩, succeeded, still⟩ := moved
  · exact absurd missing succeeded
  obtain rfl : last = (store, clock) := Prod.ext same still
  obtain rfl : reply = some (some row) := read.trans (congrArg some found)
  have quiet : Quiet seen (seen ++ [⟨.findKey result.apiKeyId, some (some row)⟩]) :=
    (Quiet.refl seen).then (.findKey _) _ rfl
  simp only [Prog.bind]
  split
  · rename_i condemned
    refine (wp_bind _).mpr (wp_applied spaced live since
      fun columns clock later since more applied _ => ?_)
    exact stored columns since (quiet.trans more) (settled_condemned applied condemned)
  · rename_i alive
    rw [if_neg (by rw [live]; decide)]
    refine (wp_bind _).mpr (wp_applied spaced live since
      fun columns clock later since more applied next => ?_)
    have good := live_applied applied live alive
    simp only [thenPost, KeyObject.fresh]
    rw [if_neg (by rw [good]; decide)]
    split
    · rename_i kind
      exact stored columns since (quiet.trans more) (kind ▸ ⟨good, next kind⟩)
    · rename_i failed
      rw [dated]
      refine stored _ since (quiet.trans more) ?_
      cases kind : result.kind with
      | success => exact absurd kind failed
      | cooling => exact ⟨good, rfl⟩
      | error => exact ⟨good, rfl⟩
      | invalid => exact absurd (.inr kind) alive
      | decryptFailed => exact absurd (.inl kind) alive

/-! ### A batch of results -/

/-- A due key was probed, and its row stands as the result asks for. -/
def Handled (foreign : Foreign) (masterKey : Bytes) (now retryAt : Instant) (events : Exchange R)
    (keys : Table KeyColumns) (due : Nat × Bytes) : Prop :=
  ∃ workers secrets replies row,
    (⟨.probeAll workers secrets, replies⟩ : Event (Op R) (Reply R)) ∈ events ∧
      keys.get? due.1 = some row ∧
        Settled now retryAt row (probeResult foreign masterKey now replies due).kind

/-- Of the due keys the first part is handled, and no other row is touched. -/
structure Advanced (foreign : Foreign) (masterKey : Bytes) (now retryAt : Instant)
    (base : Table KeyColumns) (finished : List (Nat × Bytes)) (events : Exchange R) (store : Store) :
    Prop where
  handled : ∀ due ∈ finished, Handled foreign masterKey now retryAt events store.keys due
  kept : ∀ id, id ∉ finished.map Prod.fst → store.keys.get? id = base.get? id

theorem Advanced.mono (advanced : Advanced foreign masterKey now retryAt base finished seen store)
    (grown : seen <+: later) : Advanced foreign masterKey now retryAt base finished later store := by
  refine ⟨fun due member => ?_, advanced.kept⟩
  obtain ⟨workers, secrets, replies, row, probed, rest⟩ := advanced.handled due member
  exact ⟨workers, secrets, replies, row, grown.subset probed, rest⟩

/-- One more due key is handled. -/
theorem Advanced.next {due : Nat × Bytes} {last : Store} {workers : Int}
    {secrets : List (Nat × String)} {replies : Nat → Instant × ProbeReply}
    (advanced : Advanced foreign masterKey now retryAt base finished seen store)
    (fresh : due.1 ∉ finished.map Prod.fst) (grown : seen <+: later)
    (probed : (⟨.probeAll workers secrets, replies⟩ : Event (Op R) (Reply R)) ∈ later)
    (settled : ∃ row, last.keys.get? due.1 = some row ∧
      Settled now retryAt row (probeResult foreign masterKey now replies due).kind)
    (others : ∀ other, other ≠ due.1 → last.keys.get? other = store.keys.get? other) :
    Advanced foreign masterKey now retryAt base (finished ++ [due]) later last := by
  constructor
  · intro entry member
    rcases List.mem_append.mp member with earlier | only
    · obtain ⟨workers, secrets, replies, row, asked, found, rest⟩ :=
        (advanced.mono grown).handled entry earlier
      have apart : entry.1 ≠ due.1 := fun same =>
        fresh (same ▸ List.mem_map_of_mem (f := Prod.fst) earlier)
      exact ⟨workers, secrets, replies, row, asked, (others _ apart).trans found, rest⟩
    · obtain rfl := List.mem_singleton.mp only
      obtain ⟨row, found, rest⟩ := settled
      exact ⟨workers, secrets, replies, row, probed, found, rest⟩
  · intro id outside
    rw [List.map_append, List.mem_append, not_or] at outside
    have apart : id ≠ due.1 := fun same => outside.2 (same ▸ List.mem_singleton_self _)
    exact (others id apart).trans (advanced.kept id outside.1)

/-- Every due key is good in the table that the round found. -/
def Good (base : Table KeyColumns) (due : List (Nat × Bytes)) : Prop :=
  ∀ entry ∈ due, ∃ row, base.get? entry.1 = some row ∧ terminal row = false

theorem wp_applyResultsSerial {batch : List (Nat × Bytes)} {workers : Int}
    {secrets : List (Nat × String)} {replies : Nat → Instant × ProbeReply}
    (spaced : Spaced config.creditMonitoring) (dated : now.addSeconds? (60 * retry) = some retryAt)
    (since : now ≤ clock)
    (advanced : Advanced foreign masterKey now retryAt base finished seen store)
    (single : ((finished ++ batch).map Prod.fst).Nodup) (good : Good base batch)
    (probed : (⟨.probeAll workers secrets, replies⟩ : Event (Op R) (Reply R)) ∈ seen) :
    (applyResultsSerial config now retry (batch.map (probeResult foreign masterKey now replies))).wp
      (obliging config retry) (fun outcome last => outcome = .ok () ∧ Quiet seen last.2 ∧
        now ≤ last.1.2 ∧ Advanced foreign masterKey now retryAt base (finished ++ batch) last.2
          last.1.1) ((store, clock), seen) := by
  induction batch generalizing finished store clock seen with
  | nil =>
    rw [List.append_nil]
    exact ⟨rfl, .refl seen, since, advanced⟩
  | cons due batch ih =>
    have fresh : due.1 ∉ finished.map Prod.fst := by
      rw [List.map_append, List.map_cons] at single
      exact fun member => List.disjoint_of_nodup_append single member List.mem_cons_self
    obtain ⟨row, found, live⟩ := good due List.mem_cons_self
    have there : store.keys.get? (probeResult foreign masterKey now replies due).apiKeyId = some row := by
      rw [probeResult_id]
      exact (advanced.kept due.1 fresh).trans found
    simp only [List.map_cons, applyResultsSerial, bind_eq, pure_eq, wp_bind, wp_attempt]
    refine wp_mono ?_ (wp_applyResult spaced dated since there live)
    rintro outcome ⟨⟨after, clock⟩, more⟩ ⟨rfl, quiet, since, settled, others⟩
    rw [probeResult_id] at settled others
    have next := advanced.next fresh quiet.grown (quiet.grown.subset probed) settled others
    rw [List.append_cons] at single
    refine wp_mono ?_ (ih since next single (fun entry member => good entry (List.mem_cons_of_mem _ member))
      (quiet.grown.subset probed))
    rintro outcome last ⟨ended, onward, since, advanced⟩
    rw [List.append_cons]
    exact ⟨ended, quiet.trans onward, since, advanced⟩

/-! ### A round -/

/-- The batches are the due keys in their order. -/
theorem batches_flatten {size : Nat} (positive : 0 < size) (due : List (Nat × Bytes)) :
    (batches size due).flatten = due := by
  have part (count : Nat) : ((List.range count).map fun index =>
      (due.drop (index * size)).take size).flatten = due.take (count * size) := by
    induction count with
    | zero => simp
    | succ count ih =>
      rw [List.range_succ, List.map_append, List.flatten_append, ih, Nat.succ_mul, List.take_add]
      simp
  have enough : due.length ≤ (due.length + size - 1) / size * size := by
    have upper := Nat.lt_mul_div_succ (due.length + size - 1) positive
    rw [Nat.mul_succ, Nat.mul_comm] at upper
    omega
  rw [batches, part, List.take_of_length_le enough]

theorem opened_append (front back : List (Nat × Bytes)) :
    opened foreign masterKey (front ++ back) =
      opened foreign masterKey front ++ opened foreign masterKey back := by
  rw [opened, List.filterMap_append, opened, opened]

/-- How far a round has come. -/
def Reached (foreign : Foreign) (masterKey : Bytes) (now retryAt : Instant) (base : Table KeyColumns)
    (finished : List (Nat × Bytes)) (last : (Store × Instant) × Exchange R) : Prop :=
  now ≤ last.1.2 ∧ Advanced foreign masterKey now retryAt base finished last.2 last.1.1 ∧
    asked last.2 = (opened foreign masterKey finished).map Prod.fst

theorem wp_refreshBatches {pacing : Pacing} {parts : List (List (Nat × Bytes))}
    {state : (Store × Instant) × Exchange R} (spaced : Spaced config.creditMonitoring)
    (dated : now.addSeconds? (60 * max pacing.retryDelayMinutes 1) = some retryAt)
    (reached : Reached foreign masterKey now retryAt base finished state)
    (single : ((finished ++ parts.flatten).map Prod.fst).Nodup) (good : Good base parts.flatten) :
    (refreshBatches foreign config masterKey pacing now parts).wp
      (obliging config (max pacing.retryDelayMinutes 1))
      (fun _ last => Reached foreign masterKey now retryAt base (finished ++ parts.flatten) last)
      state := by
  induction parts generalizing finished state with
  | nil =>
    rw [List.flatten_nil, List.append_nil]
    exact reached
  | cons batch parts ih =>
    obtain ⟨⟨store, clock⟩, seen⟩ := state
    obtain ⟨since, advanced, sent⟩ := reached
    rw [List.flatten_cons, ← List.append_assoc] at single ⊢
    simp only [refreshBatches, probeBatch, bind_eq, pure_eq, wp_bind]
    refine (wp_logged _ _).mpr fun replies last moved => ?_
    obtain ⟨same, -, still⟩ := moved
    obtain rfl : last = (store, clock) := Prod.ext same still
    simp only [wp_done, thenPost, wp_bind]
    have more : seen <+: seen ++
        [⟨.probeAll pacing.workers (opened foreign masterKey batch), replies⟩] :=
      List.prefix_append seen _
    have own : ((finished ++ batch).map Prod.fst).Nodup := by
      rw [List.map_append] at single
      exact (List.nodup_append.mp single).1
    refine wp_mono ?_ (wp_applyResultsSerial spaced dated since (advanced.mono more) own
      (fun entry member => good entry (List.mem_append_left _ member))
      (List.mem_append_right _ List.mem_cons_self))
    rintro outcome last ⟨rfl, quiet, since, advanced⟩
    refine ih ⟨since, advanced, ?_⟩ single fun entry member => good entry (List.mem_append_right _ member)
    rw [quiet.asked, asked, List.flatMap_append, List.flatMap_singleton, opened_append,
      List.map_append, ← sent]
    rfl

theorem wp_cleanup {state : (Store × Instant) × Exchange R}
    (reached : Reached foreign masterKey now retryAt base finished state) :
    (cleanupOldSnapshots config).wp (obliging config retry)
      (fun _ last => Reached foreign masterKey now retryAt base finished last) state := by
  obtain ⟨⟨store, clock⟩, seen⟩ := state
  obtain ⟨since, advanced, sent⟩ := reached
  have quietly (op : Op R) (reply : Reply R op) (unprobed : probed op = []) {clock : Instant}
      (since : now ≤ clock) {seen : Exchange R}
      (advanced : Advanced foreign masterKey now retryAt base finished seen store)
      (sent : asked seen = (opened foreign masterKey finished).map Prod.fst) :
      Reached foreign masterKey now retryAt base finished ((store, clock), seen ++ [⟨op, reply⟩]) :=
    ⟨since, advanced.mono (List.prefix_append _ _),
      ((Quiet.refl seen).then op reply unprobed).asked.trans sent⟩
  simp only [cleanupOldSnapshots, bind_eq, pure_eq]
  split
  · exact ⟨since, advanced, sent⟩
  · refine (wp_logged _ _).mpr fun reading last moved => ?_
    obtain ⟨same, -, later, at_, -⟩ := moved
    obtain rfl : last = (store, reading) := Prod.ext same at_
    have read := quietly .now reading rfl (since.trans later) advanced sent
    simp only [Prog.bind]
    split
    · refine (wp_logged _ _).mpr fun reply last moved => ?_
      obtain ⟨same, -, still⟩ := moved
      obtain rfl : last = (store, reading) := Prod.ext same still
      exact quietly (.deleteSnapshots _) reply rfl read.1 read.2.1 read.2.2
    · exact read

theorem wp_refreshDue {runtime : Option (RuntimeScheduling R)} {due : List (Nat × Bytes)}
    {state : (Store × Instant) × Exchange R} (spaced : Spaced config.creditMonitoring)
    (dated : now.addSeconds?
      (60 * max (pacing config.creditMonitoring runtime).retryDelayMinutes 1) = some retryAt)
    (reached : Reached foreign masterKey now retryAt base [] state)
    (single : (due.map Prod.fst).Nodup) (good : Good base due) :
    (refreshDue foreign config runtime masterKey now due).wp
      (obliging config (max (pacing config.creditMonitoring runtime).retryDelayMinutes 1))
      (fun _ last => Reached foreign masterKey now retryAt base due last) state := by
  simp only [refreshDue, bind_eq, pure_eq]
  split
  · rename_i none
    rw [none]
    exact reached
  · have positive : 0 < (pacing config.creditMonitoring runtime).batchSize.toNat := by
      have least : 1 ≤ (pacing config.creditMonitoring runtime).batchSize := le_max_right _ _
      omega
    have whole := batches_flatten positive due
    refine (wp_bind _).mpr (wp_mono ?_ (wp_refreshBatches spaced dated reached
      (by rwa [List.nil_append, whole]) (by rwa [whole])))
    rw [List.nil_append, whole]
    rintro (error | _) last reached
    · exact reached
    · exact wp_cleanup reached

theorem dueKeys_nodup (keys : Table KeyColumns) (now : Instant) :
    ((dueKeys keys now).map Prod.fst).Nodup := by
  have ids : keys.entries.map Prod.fst = keys.ids := by
    rw [Table.entries, List.map_map]
    exact List.map_id _
  have single : (keys.entries.map Prod.fst).Nodup := ids ▸ keys.nodup
  rw [dueKeys, List.map_map]
  exact single.sublist (List.filter_sublist.map Prod.fst)

/-- What a round comes to. Each due key whose secret opens is asked about once, and no other key;
each due key is settled, so that none is due at the time of the round any more; of the other rows
only those with a terminal status lose their refresh time. -/
structure Covered (foreign : Foreign) (masterKey : Bytes) (now retryAt : Instant)
    (before : Table KeyColumns) (events : Exchange R) (after : Table KeyColumns) : Prop where
  asked : asked events = (opened foreign masterKey (dueKeys before now)).map Prod.fst
  handled : ∀ due ∈ dueKeys before now, Handled foreign masterKey now retryAt events after due
  settled : dueKeys after now = []
  spared : ∀ id row, before.get? id = some row → id ∉ (dueKeys before now).map Prod.fst →
    after.get? id = some row ∨
      (terminal row = true ∧ after.get? id = some { row with nextRefreshAt := none })

/-- A settled row is not due. -/
theorem undue_settled {kind : Kind} (ahead : now < retryAt) (settled : Settled now retryAt row kind) :
    ¬ (selected now row = true ∧ terminal row = false) := by
  rintro ⟨due, live⟩
  have late (next : Instant) (dated : row.nextRefreshAt = some next) : next ≤ now := by
    have asked := (Bool.and_eq_true_iff.mp due).2
    rw [dated] at asked
    exact of_decide_eq_true asked
  cases kind with
  | success =>
    obtain ⟨-, next, dated, after⟩ := settled
    exact absurd (late next dated) (Int.not_le.mpr after)
  | cooling => exact absurd (late retryAt settled.2) (Int.not_le.mpr ahead)
  | error => exact absurd (late retryAt settled.2) (Int.not_le.mpr ahead)
  | invalid => exact absurd (settled.1.symm.trans live) nofun
  | decryptFailed => exact absurd (settled.1.symm.trans live) nofun

/-- The table on which the round works: refresh times of terminal rows are cleared. -/
theorem covered_of_reached {before : Table KeyColumns} {last : (Store × Instant) × Exchange R}
    (ahead : now < retryAt)
    (cleared : ∀ id row, base.get? id = some row → before.get? id = some row ∨
      ∃ old, before.get? id = some old ∧ terminal old = true ∧ row = { old with nextRefreshAt := none })
    (stayed : ∀ id row, before.get? id = some row → base.get? id = some row ∨
      (terminal row = true ∧ base.get? id = some { row with nextRefreshAt := none }))
    (reached : Reached foreign masterKey now retryAt base (dueKeys before now) last) :
    Covered foreign masterKey now retryAt before last.2 last.1.1.keys := by
  obtain ⟨-, advanced, sent⟩ := reached
  refine ⟨sent, advanced.handled, ?_, fun id row found outside => ?_⟩
  · refine List.eq_nil_iff_forall_not_mem.mpr fun ⟨id, blob⟩ member => ?_
    obtain ⟨row, found, due, live, -⟩ := mem_dueKeys.mp member
    by_cases inside : id ∈ (dueKeys before now).map Prod.fst
    · obtain ⟨entry, listed, rfl⟩ := List.mem_map.mp inside
      obtain ⟨_, _, _, there, _, same, settled⟩ := advanced.handled entry listed
      obtain rfl := Option.some.inj (same.symm.trans found)
      exact undue_settled ahead settled ⟨due, live⟩
    · rw [advanced.kept id inside] at found
      rcases cleared id row found with same | ⟨old, -, ended, rfl⟩
      · exact inside (List.mem_map_of_mem (f := Prod.fst)
          (mem_dueKeys.mpr ⟨row, same, due, live, rfl⟩))
      · exact absurd (ended.symm.trans live) nofun
  · rw [advanced.kept id outside]
    exact stayed id row found

theorem cleared_terminal {keys : Table KeyColumns} (listed : id ∈ clearRefreshIds keys now)
    (found : keys.get? id = some row) : terminal row = true := by
  obtain ⟨other, there, -, ended⟩ := mem_clearRefreshIds.mp listed
  obtain rfl := Option.some.inj (there.symm.trans found)
  exact ended

theorem wp_refreshAt {runtime : Option (RuntimeScheduling R)} (spaced : Spaced config.creditMonitoring)
    (dated : now.addSeconds?
      (60 * max (pacing config.creditMonitoring runtime).retryDelayMinutes 1) = some retryAt)
    (since : now ≤ clock) (quiet : asked seen = []) :
    (refreshAt foreign config runtime masterKey now).wp
      (obliging config (max (pacing config.creditMonitoring runtime).retryDelayMinutes 1))
      (fun _ last => Covered foreign masterKey now retryAt store.keys last.2 last.1.1.keys)
      ((store, clock), seen) := by
  have ahead : now < retryAt := by
    refine lt_addSeconds ?_ dated
    have least : 1 ≤ max (pacing config.creditMonitoring runtime).retryDelayMinutes 1 :=
      le_max_right _ _
    omega
  have rest {base : Table KeyColumns} {clients : Table ClientColumns} {later : Exchange R}
      (cleared : ∀ id row, base.get? id = some row → store.keys.get? id = some row ∨
        ∃ old, store.keys.get? id = some old ∧ terminal old = true ∧
          row = { old with nextRefreshAt := none })
      (stayed : ∀ id row, store.keys.get? id = some row → base.get? id = some row ∨
        (terminal row = true ∧ base.get? id = some { row with nextRefreshAt := none }))
      (quiet : asked later = []) :
      (refreshDue foreign config runtime masterKey now (dueKeys store.keys now)).wp
        (obliging config (max (pacing config.creditMonitoring runtime).retryDelayMinutes 1))
        (fun _ last => Covered foreign masterKey now retryAt store.keys last.2 last.1.1.keys)
        ((⟨base, clients⟩, clock), later) := by
    refine wp_mono (fun _ last reached => covered_of_reached ahead cleared stayed reached)
      (wp_refreshDue spaced dated ⟨since, ⟨nofun, fun _ _ => rfl⟩, quiet⟩ (dueKeys_nodup _ now) ?_)
    rintro ⟨id, blob⟩ member
    obtain ⟨row, found, -, live, -⟩ := mem_dueKeys.mp member
    rcases stayed id row found with same | ⟨ended, -⟩
    · exact ⟨row, same, live⟩
    · exact absurd (ended.symm.trans live) nofun
  simp only [refreshAt, bind_eq]
  refine (wp_logged _ _).mpr fun reply last moved => ?_
  obtain ⟨⟨same, missing | read⟩, succeeded, still⟩ := moved
  · exact absurd missing succeeded
  obtain rfl : last = (store, clock) := Prod.ext same still
  subst read
  have quiet : asked (seen ++ [(⟨.listKeys, some store.keys⟩ : Event (Op R) (Reply R))]) = [] :=
    ((Quiet.refl seen).then .listKeys (some store.keys) rfl).asked.trans quiet
  simp only [Prog.bind]
  split
  · refine (wp_logged _ _).mpr fun reply last moved => ?_
    obtain ⟨⟨_, wiped⟩ | ⟨unlike, _⟩, succeeded, still⟩ := moved
    · obtain rfl : reply = some true := succeeded
      obtain rfl : last = (⟨Store.clearRefresh store.keys (clearRefreshIds store.keys now),
        store.clients⟩, clock) := Prod.ext wiped still
      refine rest (fun id row found => ?_) (fun id row found => ?_)
        (((Quiet.refl _).then (.clearRefresh _) (some true) rfl).asked.trans quiet)
      · rw [Store.get_clearRefresh, Option.map_eq_some_iff] at found
        obtain ⟨old, there, rfl⟩ := found
        split
        · rename_i listed
          exact .inr ⟨old, there, cleared_terminal listed there, rfl⟩
        · exact .inl there
      · rw [Store.get_clearRefresh, found, Option.map_some]
        split
        · rename_i listed
          exact .inr ⟨cleared_terminal listed found, rfl⟩
        · exact .inl rfl
    · exact absurd succeeded unlike
  · exact rest (fun id row found => .inl found) (fun id row found => .inl found) quiet

/-- A round reads the clock, asks about every key that is due then and about no other, and leaves no
key due. -/
theorem refresh_round {runtime : Option (RuntimeScheduling R)} {start last : Store × Instant}
    {events : Exchange R} {outcome : Except Exn Unit} (spaced : Spaced config.creditMonitoring)
    (ran : (refreshOnce foreign config runtime masterKey).Ran events outcome)
    (followed : Follows (Obliging config.creditMonitoring
      (max (pacing config.creditMonitoring runtime).retryDelayMinutes 1)) start events last) :
    ∃ now retryAt, start.2 ≤ now ∧
      now.addSeconds? (60 * max (pacing config.creditMonitoring runtime).retryDelayMinutes 1) =
        some retryAt ∧ Covered foreign masterKey now retryAt start.1.keys events last.1.keys := by
  have round : (refreshOnce foreign config runtime masterKey).wp
      (obliging config (max (pacing config.creditMonitoring runtime).retryDelayMinutes 1))
      (fun _ last => ∃ now retryAt, start.2 ≤ now ∧
        now.addSeconds? (60 * max (pacing config.creditMonitoring runtime).retryDelayMinutes 1) =
          some retryAt ∧ Covered foreign masterKey now retryAt start.1.keys last.2 last.1.1.keys)
      (start, []) := by
    unfold refreshOnce
    simp only [bind_eq]
    refine (wp_logged _ _).mpr fun now last moved => ?_
    obtain ⟨same, -, since, at_, roomy⟩ := moved
    obtain rfl : last = (start.1, now) := Prod.ext same at_
    obtain ⟨retryAt, dated⟩ := Option.isSome_iff_exists.mp (roomy.minutes _ List.mem_cons_self)
    exact wp_mono (fun _ last covered => ⟨now, retryAt, since, dated, covered⟩)
      (wp_refreshAt spaced dated (Int.le_refl now) rfl)
  have covered := wp_logging ran followed round
  exact covered

/-- A statement that succeeds, or a reading of a clock that stands still. -/
def steady (clock : Instant) : Event (Op R) (Reply R) → Bool
  | ⟨.listKeys, reply⟩ => reply.isSome
  | ⟨.findKey _, reply⟩ => reply.isSome
  | ⟨.commit _, written⟩ => written
  | ⟨.flushSnapshot _, id⟩ => id.isSome
  | ⟨.clearRefresh _, reply⟩ => reply = some true
  | ⟨.now, reading⟩ => reading = clock
  | _ => true

theorem obliging_of_steady {monitoring : CreditMonitoringConfig} {event : Event (Op R) (Reply R)}
    {last : Store} (roomy : Roomy monitoring retry clock) (moved : store.moves event last)
    (still : steady clock event = true) : Obliging monitoring retry (store, clock) event (last, clock) := by
  obtain ⟨op, reply⟩ := event
  refine ⟨moved, ?_, ?_⟩
  · cases op with
    | listKeys => exact Option.isSome_iff_ne_none.mp still
    | findKey _ => exact Option.isSome_iff_ne_none.mp still
    | commit _ => exact still
    | flushSnapshot _ => exact Option.isSome_iff_ne_none.mp still
    | clearRefresh _ =>
      obtain rfl : reply = some true := by simpa [steady] using still
      rfl
    | _ => trivial
  · cases op with
    | now =>
      obtain rfl : reply = clock := of_decide_eq_true still
      exact ⟨Int.le_refl _, rfl, roomy⟩
    | _ => rfl

theorem follows_of_steady {monitoring : CreditMonitoringConfig} {events : Exchange R} {last : Store}
    (roomy : Roomy monitoring retry clock) (followed : Follows Store.moves store events last)
    (still : events.all (steady clock) = true) :
    Follows (Obliging monitoring retry) (store, clock) events (last, clock) := by
  induction followed with
  | nil => exact .nil
  | cons moved _ ih =>
    obtain ⟨first, rest⟩ := Bool.and_eq_true_iff.mp still
    exact .cons (obliging_of_steady roomy moved first) (ih rest)

/-- Two keys are due and one is not. -/
def threeKeys : Store :=
  { keys := ⟨[1, 2, 3], by decide, fun id => { nextRefreshAt := if id = 2 then some 1 else none }⟩
    clients := Table.empty {} }

/-- The endpoint never answers. -/
def unanswered (config : AppConfig ℚ) :=
  (refreshOnce openCipher config none []).execute (Store.answer 0) threeKeys

theorem unanswered_round : asked (unanswered {}).1 = [1, 3] ∧ ∃ now retryAt, (0 : Instant) ≤ now ∧
    now.addSeconds? (60 * max (pacing ({} : AppConfig ℚ).creditMonitoring
      (none : Option (RuntimeScheduling ℚ))).retryDelayMinutes 1) = some retryAt ∧
        Covered openCipher [] now retryAt threeKeys.keys (unanswered {}).1
          (unanswered {}).2.2.keys := by
  have still : (unanswered {}).1.all (steady 0) = true := by decide +kernel
  have roomy : Roomy ({} : AppConfig ℚ).creditMonitoring (max (pacing
      ({} : AppConfig ℚ).creditMonitoring (none : Option (RuntimeScheduling ℚ))).retryDelayMinutes 1)
      0 := ⟨by decide, by decide⟩
  have followed := follows_of_steady roomy
    (execute_follows (Store.answer_honest 0) (refreshOnce openCipher {} none []) threeKeys) still
  exact ⟨by decide +kernel, refresh_round (by unfold Spaced; decide)
    (execute_ran (Store.answer 0) _ threeKeys) followed⟩

end FcamGateway.RefreshRounds
