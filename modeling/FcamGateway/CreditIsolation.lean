import FcamGateway.CreditEffects
import FcamGateway.CreditRefresh
import FcamGateway.KeyStore
import Mathlib.Algebra.Order.Field.Rat

/-! The refresh round against the database. The round reads every provider's
rows, so it keeps to the keys of the credit endpoint's own provider exactly when
no other row is due or waits for its refresh time to be cleared. -/
namespace FcamGateway.CreditRefresh
open Credits Prog

set_option linter.unusedSectionVars false

variable {R : Type} [Field R] [LinearOrder R]

/-- The keys whose secret a question sends to the credit endpoint. -/
def probed : Op R → List Nat
  | .probe id _ => [id]
  | .probeAll _ secrets => secrets.map Prod.fst
  | _ => []

/-- The round kept to firecrawl keys: no other key's secret was sent and no
other row changed. -/
structure Isolated (before : Table KeyColumns) (events : List (Event (Op R) (Reply R)))
    (after : Table KeyColumns) : Prop where
  unsent : ∀ event ∈ events, ∀ id ∈ probed event.op, ∀ row, before.get? id = some row →
    row.provider = "firecrawl"
  unchanged : ∀ id row, before.get? id = some row → row.provider ≠ "firecrawl" →
    after.get? id = some row

/-- The round has nothing to do with the row: its query skips it, or the row is
only looked at because its status is terminal in another case and there is no
refresh time to clear. -/
def Untouched (now : Instant) (row : KeyColumns) : Prop :=
  selected now row = false ∨ (terminal row = true ∧ row.nextRefreshAt = none)

theorem mem_dueKeys {keys : Table KeyColumns} {now : Instant} {id : Nat} {blob : Bytes} :
    (id, blob) ∈ dueKeys keys now ↔ ∃ row, keys.get? id = some row ∧ selected now row = true ∧
      terminal row = false ∧ row.apiKeyCiphertext = blob := by
  simp only [dueKeys, List.mem_map, List.mem_filter, Prod.exists, Table.mem_entries,
    Prod.mk.injEq, Bool.and_eq_true, Bool.not_eq_true']
  constructor
  · rintro ⟨_, row, ⟨found, due, live⟩, rfl, same⟩
    exact ⟨row, found, due, live, same⟩
  · rintro ⟨row, found, due, live, same⟩
    exact ⟨id, row, ⟨found, due, live⟩, rfl, same⟩

theorem mem_clearRefreshIds {keys : Table KeyColumns} {now : Instant} {id : Nat} :
    id ∈ clearRefreshIds keys now ↔ ∃ row, keys.get? id = some row ∧ selected now row = true ∧
      terminal row = true := by
  simp only [clearRefreshIds, List.mem_map, List.mem_filter, Prod.exists, Table.mem_entries,
    Bool.and_eq_true]
  constructor
  · rintro ⟨_, row, ⟨found, due, ended⟩, rfl⟩
    exact ⟨row, found, due, ended⟩
  · rintro ⟨row, found, due, ended⟩
    exact ⟨id, row, ⟨found, due, ended⟩, rfl⟩

theorem mem_of_batches {size : Nat} {due batch : List (Nat × Bytes)} {entry : Nat × Bytes}
    (member : batch ∈ batches size due) (inside : entry ∈ batch) : entry ∈ due := by
  obtain ⟨index, _, rfl⟩ := List.mem_map.mp member
  exact List.mem_of_mem_drop (List.mem_of_mem_take inside)

/-- The batches leave no due key out. -/
theorem batches_cover {size : Nat} (positive : 0 < size) {due : List (Nat × Bytes)}
    {entry : Nat × Bytes} (member : entry ∈ due) : ∃ batch ∈ batches size due, entry ∈ batch := by
  obtain ⟨position, inside, rfl⟩ := List.getElem_of_mem member
  have split := Nat.div_add_mod' position size
  have small := Nat.mod_lt position positive
  have number : position / size < (due.length + size - 1) / size := by
    rw [Nat.div_lt_iff_lt_mul positive]
    have upper := Nat.lt_mul_div_succ (due.length + size - 1) positive
    rw [Nat.mul_succ, Nat.mul_comm] at upper
    omega
  refine ⟨_, List.mem_map.mpr ⟨position / size, List.mem_range.mpr number, rfl⟩, ?_⟩
  rw [List.mem_take_iff_getElem]
  refine ⟨position % size, ?_, ?_⟩
  · rw [List.length_drop]
    omega
  · rw [List.getElem_drop]
    congr 1

@[simp] theorem probeResult_id (foreign : Foreign) (masterKey : Bytes) (now : Instant)
    (replies : Nat → Instant × ProbeReply) (due : Nat × Bytes) :
    (probeResult foreign masterKey now replies due).apiKeyId = due.1 := by
  have read (at_ : Instant) (reply : ProbeReply) (result : CreditFetchResult)
      (ok : readProbe foreign due.1 at_ reply = .ok result) : result.apiKeyId = due.1 := by
    cases reply with
    | timeout => cases ok; rfl
    | failed text => cases ok; rfl
    | response statusCode json text =>
      simp only [readProbe] at ok
      split at ok
      · split at ok
        · cases ok; rfl
        · split at ok
          · rename_i parsed
            cases ok
            simp only [readPayload] at parsed
            split at parsed
            · split at parsed
              · cases parsed; rfl
              · simp only [Option.bind_eq_some_iff, Option.map_eq_some_iff] at parsed
                obtain ⟨_, _, _, _, _, _, rfl⟩ := parsed
                rfl
            · cases parsed
          · cases ok
      · split at ok
        · cases ok; rfl
        · split at ok <;> cases ok <;> rfl
  simp only [probeResult]
  split
  · rfl
  · split
    · rename_i result ok
      exact read _ _ result ok
    · rfl

section Kept
variable {monitor : Monitor Store (Op R) (Reply R)} {holds : Store → Prop} {store : Store}

/-- What a round needs of its surroundings to keep a property of the store: the
statements move it as the database does and only rows with the given ids are
written. -/
structure KeepsRound (monitor : Monitor Store (Op R) (Reply R)) (holds : Store → Prop)
    (ids : List Nat) : Prop where
  moves : ∀ state event last, monitor.moves state event last → Store.moves state event last
  demands : ∀ state op, (∀ id ∈ probed op, id ∈ ids) → monitor.demands state op
  flush : ∀ store key, key.id ∈ ids → holds store →
    holds { store with keys := Store.flushKey store.keys key }

theorem KeepsRound.silent {ids : List Nat} (keeps : KeepsRound monitor holds ids) {op : Op R}
    (unprobed : probed op = [])
    (same : ∀ store reply last, Store.moves store ⟨op, reply⟩ last → last = store) :
    monitor.Keeps holds op := by
  refine fun state held => ⟨keeps.demands state op (by simp [unprobed]), fun reply last moved => ?_⟩
  rw [same _ _ _ (keeps.moves _ _ _ moved)]
  exact held

theorem KeepsRound.apply {ids : List Nat} (keeps : KeepsRound monitor holds ids) :
    KeepsApply monitor holds :=
  ⟨keeps.silent rfl fun _ _ _ moved => moved, fun _ => keeps.silent rfl fun _ _ _ moved => moved⟩

theorem KeepsRound.commit {ids : List Nat} (keeps : KeepsRound monitor holds ids) (site : Site)
    (key : KeyObject) (listed : key.id ∈ ids) :
    monitor.Keeps holds (.commit { site, keys := [key] }) := by
  refine fun state held => ⟨keeps.demands state _ (by simp [probed]), fun reply last moved => ?_⟩
  rcases keeps.moves _ _ _ moved with ⟨_, _, rfl⟩ | ⟨_, rfl⟩
  · exact keeps.flush state key listed held
  · exact held

/-- Applying one result writes at most its own key's row. -/
theorem wp_applyResult {ids : List Nat} (keeps : KeepsRound monitor holds ids)
    (config : AppConfig R) (now : Instant) (retry : Int) (result : CreditFetchResult)
    (listed : result.apiKeyId ∈ ids) (held : holds store) :
    (applyResult config now retry result).wp monitor (fun _ last => holds last) store := by
  have committed (site : Site) (columns loaded : KeyColumns) (last : Store) (held : holds last) :
      ((query (.commit { site, keys := [⟨result.apiKeyId, loaded, columns⟩] })).bind
        fun _ => (done () : Gateway R Unit)).wp monitor (fun _ last => holds last) last :=
    wp_keeps (keeps.commit site ⟨result.apiKeyId, loaded, columns⟩ listed) held
      fun _ _ held => held
  unfold applyResult
  simp only [bind_eq, pure_eq]
  refine wp_keeps (keeps.silent rfl fun _ _ _ moved => moved.1) held fun found last held => ?_
  rcases found with _ | _ | row
  · exact held
  · exact held
  · simp only [Prog.bind]
    split
    · rw [wp_bind]
      exact wp_apply config _ result keeps.apply held
        (fun columns last held _ => committed _ columns _ last held) fun last held => held
    · split
      · split
        · exact committed _ _ _ last held
        · exact held
      · rw [wp_bind]
        refine wp_apply config _ result keeps.apply held
          (fun columns last held _ => ?_) fun last held => held
        simp only [thenPost]
        split
        · exact wp_bind _ |>.mp (committed _ _ _ last held)
        · split
          · exact wp_bind _ |>.mp (committed _ _ _ last held)
          · split
            · exact wp_bind _ |>.mp (committed _ _ _ last held)
            · exact held

theorem wp_applyResultsSerial {ids : List Nat} (keeps : KeepsRound monitor holds ids)
    (config : AppConfig R) (now : Instant) (retry : Int) (results : List CreditFetchResult)
    (listed : ∀ result ∈ results, result.apiKeyId ∈ ids) (held : holds store) :
    (applyResultsSerial config now retry results).wp monitor (fun _ last => holds last) store := by
  induction results generalizing store with
  | nil => exact held
  | cons result results ih =>
    simp only [applyResultsSerial, bind_eq, pure_eq, wp_bind, wp_attempt]
    have rest {last : Store} (held : holds last) :=
      ih (fun other member => listed other (List.mem_cons_of_mem _ member)) held
    refine wp_mono ?_ (wp_applyResult keeps config now retry result
      (listed result List.mem_cons_self) held)
    intro outcome last held
    cases outcome with
    | ok value => exact rest held
    | error error => exact rest held

theorem wp_refreshBatches {ids : List Nat} (keeps : KeepsRound monitor holds ids)
    (foreign : Foreign) (config : AppConfig R) (masterKey : Bytes) (pacing : Pacing) (now : Instant)
    (parts : List (List (Nat × Bytes)))
    (listed : ∀ part ∈ parts, ∀ entry ∈ part, entry.1 ∈ ids) (held : holds store) :
    (refreshBatches foreign config masterKey pacing now parts).wp monitor
      (fun _ last => holds last) store := by
  induction parts generalizing store with
  | nil => exact held
  | cons part parts ih =>
    have own := listed part List.mem_cons_self
    simp only [refreshBatches, probeBatch, bind_eq, pure_eq, wp_bind]
    refine ⟨keeps.demands _ _ ?_, fun replies last moved => ?_⟩
    · intro id member
      simp only [probed, opened, List.mem_map, List.mem_filterMap, Option.map_eq_some_iff,
        Prod.exists] at member
      obtain ⟨_, _, ⟨_, _, inside, _, _, same⟩, rfl⟩ := member
      cases same
      exact own _ inside
    · cases keeps.moves _ _ _ moved
      have results : ∀ result ∈ part.map (probeResult foreign masterKey now replies),
          result.apiKeyId ∈ ids := by
        intro result member
        obtain ⟨entry, inside, rfl⟩ := List.mem_map.mp member
        rw [probeResult_id]
        exact own entry inside
      simp only [wp_done, thenPost, wp_bind]
      refine wp_mono ?_ (wp_applyResultsSerial keeps config now _ _ results held)
      intro outcome last held
      cases outcome with
      | ok value =>
        exact ih (fun part member => listed part (List.mem_cons_of_mem _ member)) held
      | error error => exact held

theorem wp_cleanup {ids : List Nat} (keeps : KeepsRound monitor holds ids) (config : AppConfig R)
    (held : holds store) :
    (cleanupOldSnapshots config).wp monitor (fun _ last => holds last) store := by
  simp only [cleanupOldSnapshots, bind_eq, pure_eq]
  split
  · exact held
  · refine wp_keeps (keeps.silent rfl fun _ _ _ moved => moved) held fun now last held => ?_
    simp only [Prog.bind]
    split
    · exact wp_keeps (keeps.silent rfl fun _ _ _ moved => moved) held fun _ last held => held
    · exact held

theorem wp_refreshDue {ids : List Nat} (keeps : KeepsRound monitor holds ids)
    (foreign : Foreign) (config : AppConfig R) (runtime : Option (RuntimeScheduling R))
    (masterKey : Bytes) (now : Instant) (due : List (Nat × Bytes))
    (listed : ∀ entry ∈ due, entry.1 ∈ ids) (held : holds store) :
    (refreshDue foreign config runtime masterKey now due).wp monitor
      (fun _ last => holds last) store := by
  simp only [refreshDue, bind_eq, pure_eq]
  split
  · exact held
  · rw [wp_bind]
    refine wp_mono ?_ (wp_refreshBatches keeps foreign config masterKey _ now _
      (fun part member entry inside => listed entry (mem_of_batches member inside)) held)
    intro outcome last held
    cases outcome with
    | ok value => exact wp_cleanup keeps config held
    | error error => exact held

/-- A round writes only rows of due keys and the refresh times it clears. -/
theorem wp_refreshAt {ids : List Nat} (store : Store) (keeps : KeepsRound monitor holds ids)
    (foreign : Foreign) (config : AppConfig R) (runtime : Option (RuntimeScheduling R))
    (masterKey : Bytes) (now : Instant)
    (listed : ∀ entry ∈ dueKeys store.keys now, entry.1 ∈ ids) (held : holds store)
    (cleared : holds { store with
      keys := Store.clearRefresh store.keys (clearRefreshIds store.keys now) }) :
    (refreshAt foreign config runtime masterKey now).wp monitor (fun _ last => holds last) store := by
  simp only [refreshAt, bind_eq]
  refine ⟨keeps.demands _ _ (by simp [probed]), fun found last moved => ?_⟩
  obtain ⟨rfl, missing | present⟩ := keeps.moves _ _ _ moved
  · subst missing
    exact held
  · subst present
    have rest {after : Store} (held : holds after) :=
      wp_refreshDue keeps foreign config runtime masterKey now _ listed held
    simp only [Prog.bind]
    split
    · refine ⟨keeps.demands _ _ (by simp [probed]), fun reply after moved => ?_⟩
      have held : holds after := by
        rcases keeps.moves _ _ _ moved with ⟨_, rfl⟩ | ⟨_, rfl⟩
        · exact cleared
        · exact held
      cases reply with
      | none => exact held
      | some ok => exact rest held
    · exact rest held

end Kept

/-- Surroundings in which every statement succeeds and the credit endpoint
refuses every key. -/
def refusing (now : Instant) (store : Store) : (op : Op R) → Reply R op × Store
  | .probe _ _ => (.response 401 none "", store)
  | .probeAll _ _ => (fun _ => (now, .response 401 none ""), store)
  | op => store.answer now op

theorem refusing_honest (now : Instant) (store : Store) (op : Op R) :
    Store.moves store ⟨op, (refusing now store op).1⟩ (refusing now store op).2 := by
  cases op with
  | probe _ _ => rfl
  | probeAll _ _ => rfl
  | _ => exact store.answer_honest now _

section Condemned
variable {clock : Instant} {store : Store} {k : Nat}

/-- The row is there and inactive. -/
def Struck (k : Nat) (store : Store) : Prop :=
  ∃ row, store.keys.get? k = some row ∧ row.isActive = false

private theorem struck_flush {row columns : KeyColumns} {id : Nat}
    (found : store.keys.get? id = some row) (inactive : columns.isActive = false)
    (either : id = k ∨ Struck k store) :
    Struck k { store with keys := Store.flushKey store.keys ⟨id, row, columns⟩ } := by
  by_cases same : k = id
  · subst same
    refine ⟨columns, ?_, inactive⟩
    have flushed := Store.get_flushKey_self store.keys ⟨k, row, columns⟩
    rw [found] at flushed
    rw [flushed]
    exact congrArg some (KeyObject.flush_loaded ⟨k, row, columns⟩)
  · obtain ⟨other, there, off⟩ := either.resolve_left fun equal => same equal.symm
    refine ⟨other, ?_, off⟩
    rw [← there]
    exact Store.get_flushKey_other same

/-- A result that condemns its key leaves the row inactive. -/
private theorem wp_condemning (config : AppConfig R) (now : Instant) (retry : Int)
    {result : CreditFetchResult} (condemns : result.kind = .decryptFailed ∨ result.kind = .invalid)
    (listed : k ∈ store.keys.ids) :
    (applyResult config now retry result).wp (.answering (refusing clock))
      (fun outcome last => outcome = .ok () ∧ k ∈ last.keys.ids ∧
        (result.apiKeyId = k ∨ Struck k store → Struck k last)) store := by
  unfold applyResult
  simp only [bind_eq, pure_eq]
  refine (wp_answering _ _).mpr ?_
  simp only [refusing, Store.answer, Prog.bind]
  cases found : store.keys.get? result.apiKeyId with
  | none =>
    refine ⟨rfl, listed, fun either => either.resolve_left fun same => ?_⟩
    rw [same] at found
    exact Table.get_none.mp found listed
  | some row =>
    have present (columns : KeyColumns) (site : Site) :
        store.Present { site, keys := [⟨result.apiKeyId, row, columns⟩] } := by
      intro key member _
      cases List.mem_singleton.mp member
      exact (Table.get_some.mp found).1
    have done_ (columns : KeyColumns) (inactive : columns.isActive = false) :
        ((query (.commit { site := .creditResult, keys := [⟨result.apiKeyId, row, columns⟩] })).bind
          fun _ => (done () : Gateway R Unit)).wp (.answering (refusing clock))
        (fun outcome last => outcome = .ok () ∧ k ∈ last.keys.ids ∧
          (result.apiKeyId = k ∨ Struck k store → Struck k last)) store := by
      refine (wp_answering _ _).mpr ?_
      simp only [refusing, Store.answer, present, if_true]
      exact ⟨rfl, listed, struck_flush found inactive⟩
    simp only [condemns, ↓reduceIte, wp_bind]
    unfold applyCreditFetchResult applyFetchedAt flushSnapshot
    split
    all_goals try refine (wp_answering _ _).mpr ?_
    all_goals
      rcases condemns with kind | kind <;> simp only [kind, bind_eq, wp_bind] <;>
      exact (wp_answering _ _).mpr (done_ _ rfl)

private theorem wp_condemningAll (config : AppConfig R) (now : Instant) (retry : Int)
    (results : List CreditFetchResult)
    (condemn : ∀ result ∈ results, result.kind = .decryptFailed ∨ result.kind = .invalid)
    (listed : k ∈ store.keys.ids) :
    (applyResultsSerial config now retry results).wp (.answering (refusing clock))
      (fun outcome last => outcome = .ok () ∧ k ∈ last.keys.ids ∧
        ((∃ result ∈ results, result.apiKeyId = k) ∨ Struck k store → Struck k last)) store := by
  induction results generalizing store with
  | nil => exact ⟨rfl, listed, fun either => either.resolve_left (by simp)⟩
  | cons result results ih =>
    simp only [applyResultsSerial, bind_eq, pure_eq, wp_bind, wp_attempt]
    refine wp_mono ?_ (wp_condemning config now retry (condemn result List.mem_cons_self) listed)
    rintro outcome middle ⟨rfl, listed, struck⟩
    refine wp_mono ?_ (ih (fun other member => condemn other (List.mem_cons_of_mem _ member)) listed)
    rintro outcome last ⟨rfl, listed, later⟩
    refine ⟨rfl, listed, fun either => later ?_⟩
    rcases either with ⟨other, member, same⟩ | before
    · rcases List.mem_cons.mp member with rfl | member
      · exact .inr (struck (.inl same))
      · exact .inl ⟨other, member, same⟩
    · exact .inr (struck (.inr before))

private theorem wp_condemningBatches (foreign : Foreign) (config : AppConfig R) (masterKey : Bytes)
    (pacing : Pacing) (now : Instant) (parts : List (List (Nat × Bytes)))
    (listed : k ∈ store.keys.ids) :
    (refreshBatches foreign config masterKey pacing now parts).wp (.answering (refusing clock))
      (fun outcome last => outcome = .ok () ∧ k ∈ last.keys.ids ∧
        ((∃ part ∈ parts, ∃ entry ∈ part, entry.1 = k) ∨ Struck k store → Struck k last)) store := by
  induction parts generalizing store with
  | nil => exact ⟨rfl, listed, fun either => either.resolve_left (by simp)⟩
  | cons part parts ih =>
    simp only [refreshBatches, probeBatch, bind_eq, pure_eq, wp_bind]
    refine (wp_answering _ _).mpr ?_
    simp only [wp_done, thenPost, wp_bind]
    have condemn : ∀ result ∈ part.map (probeResult foreign masterKey now
        (refusing (R := R) clock store (.probeAll pacing.workers (opened foreign masterKey part))).1),
        result.kind = .decryptFailed ∨ result.kind = .invalid := by
      intro result member
      obtain ⟨entry, _, rfl⟩ := List.mem_map.mp member
      simp only [probeResult]
      split
      · exact .inl rfl
      · exact .inr rfl
    refine wp_mono ?_ (wp_condemningAll config now _ _ condemn listed)
    rintro outcome middle ⟨rfl, listed, struck⟩
    refine wp_mono ?_ (ih listed)
    rintro outcome last ⟨rfl, listed, later⟩
    refine ⟨rfl, listed, fun either => later ?_⟩
    rcases either with ⟨other, member, entry, inside, same⟩ | before
    · rcases List.mem_cons.mp member with rfl | member
      · refine .inr (struck (.inl ⟨_, List.mem_map.mpr ⟨entry, inside, rfl⟩, ?_⟩))
        rw [probeResult_id, same]
      · exact .inl ⟨other, member, entry, inside, same⟩
    · exact .inr (struck (.inr before))

/-- Where every key is refused, a row that the round touches ends changed. -/
private theorem wp_touched (foreign : Foreign) (config : AppConfig R)
    (runtime : Option (RuntimeScheduling R)) (masterKey : Bytes) (now : Instant) {row : KeyColumns}
    (found : store.keys.get? k = some row) (due : selected now row = true)
    (touched : ¬(terminal row = true ∧ row.nextRefreshAt = none)) :
    (refreshAt foreign config runtime masterKey now).wp (.answering (refusing now))
      (fun _ last => last.keys.get? k ≠ some row) store := by
  have active : row.isActive = true := by
    simp only [selected, Bool.and_eq_true] at due
    exact due.1.1
  simp only [refreshAt, bind_eq]
  refine (wp_answering _ _).mpr ?_
  simp only [refusing, Store.answer, Prog.bind]
  cases ended : terminal row with
  | true =>
    -- the row is not probed, its refresh time is cleared and nothing writes it again
    have listed : k ∈ clearRefreshIds store.keys now := mem_clearRefreshIds.mpr ⟨row, found, due, ended⟩
    have keeps : KeepsRound (R := R) (.answering (refusing now))
        (fun last => last.keys.get? k = some { row with nextRefreshAt := none })
        ((dueKeys store.keys now).map Prod.fst) := by
      refine ⟨fun state event last moved => ?_, fun _ _ _ => trivial, fun last key member held => ?_⟩
      · have honest := refusing_honest now state event.op
        rw [← show (event.reply, last) = refusing now state event.op from moved] at honest
        exact honest
      · rw [← held]
        refine Store.get_flushKey_other fun same => ?_
        obtain ⟨entry, inside, equal⟩ := List.mem_map.mp member
        obtain ⟨other, there, _, live, _⟩ := mem_dueKeys.mp inside
        rw [equal, ← same, found] at there
        cases there
        rw [ended] at live
        cases live
    rw [if_pos (List.ne_nil_of_mem listed)]
    refine (wp_answering _ _).mpr ?_
    refine wp_mono ?_ (wp_refreshDue keeps foreign config runtime masterKey now _
      (fun entry inside => List.mem_map.mpr ⟨entry, inside, rfl⟩) ?_)
    · intro _ last held same
      rw [held] at same
      have cleared := congrArg KeyColumns.nextRefreshAt (Option.some.inj same)
      exact touched ⟨ended, cleared.symm⟩
    · simp only [refusing, Store.answer, Store.get_clearRefresh, found, Option.map_some, listed, ↓reduceIte]
  | false =>
    -- the key is probed, and its refusal condemns the row
    have listed : k ∈ store.keys.ids := (Table.get_some.mp found).1
    have inside : (k, row.apiKeyCiphertext) ∈ dueKeys store.keys now :=
      mem_dueKeys.mpr ⟨row, found, due, ended, rfl⟩
    have positive : 0 < (pacing config.creditMonitoring runtime).batchSize.toNat := by
      simp only [pacing]
      omega
    obtain ⟨part, member, among⟩ := batches_cover positive inside
    have rest {after : Store} (listed : k ∈ after.keys.ids) :
        (refreshDue foreign config runtime masterKey now (dueKeys store.keys now)).wp
          (.answering (refusing now)) (fun _ last => last.keys.get? k ≠ some row) after := by
      have keeps : KeepsRound (R := R) (.answering (refusing now)) (Struck k) [] := by
        refine ⟨fun state event last moved => ?_, fun _ _ _ => trivial, fun _ _ none => by cases none⟩
        have honest := refusing_honest now state event.op
        rw [← show (event.reply, last) = refusing now state event.op from moved] at honest
        exact honest
      simp only [refreshDue, bind_eq, pure_eq]
      rw [if_neg (List.ne_nil_of_mem inside), wp_bind]
      refine wp_mono ?_ (wp_condemningBatches foreign config masterKey _ now _ listed)
      rintro outcome last ⟨rfl, _, struck⟩
      have struck := struck (.inl ⟨part, member, _, among, rfl⟩)
      refine wp_mono ?_ (wp_cleanup keeps config struck)
      rintro _ last ⟨other, there, off⟩ same
      rw [there] at same
      cases same
      rw [active] at off
      cases off
    split
    · exact (wp_answering _ _).mpr (rest (by
        simp only [refusing, Store.answer]
        have kept := Store.get_clearRefresh (clearRefreshIds store.keys now) store.keys k
        rw [found] at kept
        exact (Table.get_some.mp kept).1))
    · exact rest listed

end Condemned

/-- A background round keeps to firecrawl keys, whatever the endpoint and the
database reply, exactly when its query finds no other key: none is due, and none
that is terminal in another case has a refresh time to clear. -/
theorem refresh_once_isolated_iff (foreign : Foreign) (config : AppConfig R)
    (runtime : Option (RuntimeScheduling R)) (masterKey : Bytes) (before : Store) (now : Instant) :
    (∀ events outcome after,
      Ran (refreshOnce foreign config runtime masterKey) (⟨.now, now⟩ :: events) outcome →
      Follows Store.moves before (⟨.now, now⟩ :: events) after →
      Isolated before.keys (⟨.now, now⟩ :: events) after.keys) ↔
    ∀ id row, before.keys.get? id = some row → row.provider ≠ "firecrawl" → Untouched now row := by
  constructor
  · intro isolated id row found other
    by_contra touched
    simp only [Untouched, not_or, Bool.not_eq_false] at touched
    have kept := isolated _ _ _ (.ask (execute_ran (refusing now) _ before))
      (.cons rfl (execute_follows (refusing_honest now) _ before))
    exact wp_execute (wp_touched foreign config runtime masterKey now found touched.1 touched.2)
      (kept.unchanged id row found other)
  · intro untouched events outcome after ran followed
    let monitor : Monitor Store (Op R) (Reply R) :=
      { demands := fun _ op => ∀ id ∈ probed op, ∀ row, before.keys.get? id = some row →
          row.provider = "firecrawl"
        moves := Store.moves }
    let own := (dueKeys before.keys now).map Prod.fst
    have ownProvider : ∀ id ∈ own, ∀ row, before.keys.get? id = some row →
        row.provider = "firecrawl" := by
      intro id member row found
      obtain ⟨entry, inside, rfl⟩ := List.mem_map.mp member
      obtain ⟨there, same, due, live, _⟩ := mem_dueKeys.mp inside
      rw [found] at same
      cases same
      by_contra other
      rcases untouched _ row found other with skipped | ended
      · simp [skipped] at due
      · simp [ended.1] at live
    have keeps : KeepsRound monitor (fun store => ∀ id row, before.keys.get? id = some row →
        row.provider ≠ "firecrawl" → store.keys.get? id = some row) own := by
      refine ⟨fun _ _ _ moved => moved, fun _ op listed id member => ownProvider id (listed id member),
        fun store key member held id row found other => ?_⟩
      rw [← held id row found other]
      refine Store.get_flushKey_other fun same => ?_
      exact other (ownProvider id (same ▸ member) row found)
    obtain _ | ⟨moved, followed⟩ := followed
    cases moved
    cases ran with
    | ask ran =>
      have met := wp_refreshAt before keeps foreign config runtime masterKey now
        (fun entry inside => List.mem_map.mpr ⟨entry, inside, rfl⟩)
        (fun id row found _ => found) ?_
      · refine ⟨?_, wp_ran ran followed met⟩
        intro event member
        rcases List.mem_cons.mp member with rfl | member
        · simp [probed]
        · exact wp_every (fun _ _ demanded => demanded) ran followed met event member
      · intro id row found other
        rw [Store.get_clearRefresh, found, Option.map_some]
        split
        · rename_i cleared
          obtain ⟨there, same, due, ended⟩ := mem_clearRefreshIds.mp cleared
          rw [found] at same
          cases same
          rcases untouched id row found other with skipped | ⟨_, none⟩
          · simp [skipped] at due
          · cases row
            simp_all
        · rfl

/-- A key of another provider that was never refreshed. -/
def exaKey : KeyColumns := { provider := "exa", apiKeyCiphertext := [1] }

def exaStore : Store :=
  { keys := ⟨[1], List.pairwise_singleton _ _, fun _ => exaKey⟩, clients := Table.empty {} }

/-- With default settings and a due exa key, a refused probe disables the key. -/
theorem refresh_once_condemns_exa_key :
    ¬ ∀ events outcome after,
      Ran (refreshOnce (R := ℚ) openCipher {} none []) (⟨.now, 0⟩ :: events) outcome →
      Follows Store.moves exaStore (⟨.now, 0⟩ :: events) after →
      Isolated exaStore.keys (⟨.now, 0⟩ :: events) after.keys := by
  intro isolated
  have kept := isolated _ _ _ (.ask (execute_ran (refusing 0) _ exaStore))
    (.cons rfl (execute_follows (refusing_honest 0) _ exaStore))
  have unchanged := kept.unchanged 1 exaKey rfl (by decide)
  have condemned : ((refreshAt (R := ℚ) openCipher {} none [] 0).execute (refusing 0)
      exaStore).2.2.keys.get? 1 ≠ some exaKey := by decide
  exact condemned unchanged

end FcamGateway.CreditRefresh
