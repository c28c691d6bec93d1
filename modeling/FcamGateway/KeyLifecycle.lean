import FcamGateway.KeyOperations
import FcamGateway.KeyActivation

/-! The life of a key over a sequence of operations. Each operation writes the two columns of its
phase as it found them or as its session keeps them, so a row that is in a phase stays in one. Two
kinds of writes trust what they find: switching a key on keeps the status of a verdict, and a probe
of a single key rests it without a look at the flag. -/
namespace FcamGateway.KeyPhases
open Prog Credits Upstream Forwarder KeyAdmin KeyWrites KeyTasks

set_option linter.unusedSectionVars false

variable {R : Type} [Field R] [LinearOrder R] [ScoreMath R]

inductive Operation where
  | task (work : Task)
  | deleteKey (keyId : Nat)

namespace Operation

def program (control : ControlPlane R) (vault : KeyVault) : Operation → Endpoint R Unit
  | .task work => work.program control vault
  | .deleteKey keyId => gateway (KeyAdmin.deleteKey keyId)

/-- The operation switches keys on with the status that it finds. -/
def enables : Operation → Bool
  | .task (.updateKey _ _ _ payload) => payload.isActive = some true
  | .task (.batchKeys payload) =>
    payload.patch.bind (·.isActive) = some true && !payload.softDelete && !payload.purge
  | _ => false

/-- Whatever an operation commits, it may. -/
theorem minds (control : ControlPlane R) (vault : KeyVault) (operation : Operation) :
    Minds (operation.enables = true) [] (operation.program control vault) := by
  cases operation with
  | deleteKey keyId => exact minds_gateway (keeps_deleteKey keyId)
  | task work =>
    cases work with
    | forward call => exact minds_gateway (keeps_forward control.setup call)
    | testKey requestId keyId mode testUrl =>
      exact minds_ended (minds_gateway (keeps_testKeyEndpoint control requestId keyId mode testUrl))
    | refreshOnce => exact minds_gateway (keeps_refreshRound control.setup)
    | refreshKeyCredits keyId =>
      exact minds_ended (minds_gateway (keeps_refreshKeyCredits control keyId))
    | refreshAllCredits keyIds force =>
      exact minds_ended (minds_gateway (keeps_refreshAllCredits control keyIds force))
    | importKeysText nonce today payload =>
      exact minds_ended (minds_importKeysText control vault nonce today payload)
    | resetKeysQuota today => exact minds_ended (minds_gateway (keeps_resetKeysQuota today))
    | updateKey nonce duplicate keyId payload =>
      refine minds_ended (minds_gateway (keeps_updateKey control vault nonce duplicate keyId payload ?_))
      exact fun on => decide_eq_true on
    | batchKeys payload =>
      refine minds_ended (minds_batchKeys payload fun on soft kept => ?_)
      simp [enables, on, soft, kept]
    | reviveKey requestId keyId payload =>
      exact minds_ended (minds_gateway (keeps_reviveKey control requestId keyId payload))

end Operation

/-- What the two trusting writes rely on: no key that was condemned is switched on, and no key that
is off is probed on its own and answered with 429. -/
structure Heeded (operation : Operation) (events : Exchange R) : Prop where
  pardoned : operation.enables = true → ∀ key, Found events key →
    key.loaded.status ∉ condemnedStatuses
  awake : ∀ key, Chilled events key → key.loaded.isActive = true

/-- Operations one after the other, each with any settings and up to any of its steps. -/
inductive Sequence : Store → List (Operation × List (Happening R)) → Store → Prop where
  | nil : Sequence store [] store
  | cons {start middle last : Store} {operation : Operation} {events : List (Happening R)}
      {later : List (Operation × List (Happening R))} {left : Endpoint R Unit}
      (control : ControlPlane R) (vault : KeyVault)
      (reached : Reaches (operation.program control vault) events left)
      (followed : Follows moves start events middle) (rest : Sequence middle later last) :
      Sequence start ((operation, events) :: later) last

def AllPhased (store : Store) : Prop := ∀ id row, store.keys.get? id = some row → Phased row

/-- Every row is in a phase, and the phases that the session knows are those of the store. -/
structure Kept (events : Exchange R) (store : Store) : Prop where
  phased : AllPhased store
  synced : ∀ id row kept, rows events id = some row → store.keys.get? id = some kept →
    SamePhase row kept

variable {operation : Operation} {front : List (Happening R)} {history : Exchange R}
  {before after store : Store} {keys : Table KeyColumns} {key : KeyObject} {id : Nat}

theorem Heeded.earlier {more : Exchange R} (heeded : Heeded operation (history ++ more)) :
    Heeded operation history :=
  ⟨fun on key found => heeded.pardoned on key (List.mem_append_left _ found),
    fun key chilled => heeded.awake key (chilled.then more)⟩

/-- A flushed object brings its phase to a row that is as it was loaded or has that phase already. -/
theorem samePhase_flush {old : KeyColumns}
    (same : SamePhase old key.loaded ∨ SamePhase old key.current) :
    SamePhase (key.flush old) key.current := by
  have column {Column : Type} [DecidableEq Column] {loaded current value : Column}
      (held : value = loaded ∨ value = current) : written loaded current value = current := by
    unfold written
    split
    · rename_i unchanged
      rcases held with rfl | rfl
      · exact unchanged.symm
      · rfl
    · rfl
  exact ⟨column (same.imp SamePhase.active SamePhase.active),
    column (same.imp SamePhase.status SamePhase.status)⟩

theorem ids_flushed (objects : List KeyObject) (keys : Table KeyColumns) :
    (objects.foldl Store.flushKey keys).ids = keys.ids := by
  induction objects generalizing keys with
  | nil => rfl
  | cons first objects ih => exact (ih _).trans Store.ids_flushKey

/-- A commit with one object for a row brings the phase of that object. -/
theorem phase_flushed (objects : List KeyObject) {old : KeyColumns}
    (single : ∀ other ∈ objects, other.id = key.id → other = key)
    (found : keys.get? key.id = some old)
    (same : SamePhase old key.loaded ∨ SamePhase old key.current) :
    ∃ new, (objects.foldl Store.flushKey keys).get? key.id = some new ∧
      (key ∈ objects ∨ SamePhase old key.current → SamePhase new key.current) := by
  induction objects generalizing keys old with
  | nil => exact ⟨old, found, fun held => held.resolve_left List.not_mem_nil⟩
  | cons first objects ih =>
    have single' (other : KeyObject) (member : other ∈ objects) :=
      single other (List.mem_cons_of_mem _ member)
    by_cases own : first.id = key.id
    · obtain rfl := single first List.mem_cons_self own
      have flushed := samePhase_flush same
      have written : (Store.flushKey keys first).get? first.id = some (first.flush old) := by
        rw [Store.get_flushKey_self, found, Option.map_some]
      obtain ⟨new, stands, phase⟩ := ih single' written (.inr flushed)
      exact ⟨new, stands, fun _ => phase (.inr flushed)⟩
    · have untouched : (Store.flushKey keys first).get? key.id = some old :=
        (Store.get_flushKey_other (Ne.symm own)).trans found
      obtain ⟨new, stands, phase⟩ := ih single' untouched same
      refine ⟨new, stands, fun held => phase (held.imp_left fun member => ?_)⟩
      exact (List.mem_cons.mp member).resolve_left fun equal => own (equal ▸ rfl)

/-- Objects that keep their phase leave the phase of each row. -/
theorem phase_kept (objects : List KeyObject)
    (kept : ∀ key ∈ objects, SamePhase key.current key.loaded) {new : KeyColumns}
    (stands : (objects.foldl Store.flushKey keys).get? id = some new) :
    ∃ old, keys.get? id = some old ∧ SamePhase new old := by
  induction objects generalizing keys with
  | nil => exact ⟨new, stands, .refl new⟩
  | cons first objects ih =>
    obtain ⟨middle, found, phase⟩ :=
      ih (fun key member => kept key (List.mem_cons_of_mem _ member)) stands
    by_cases own : id = first.id
    · subst own
      rw [Store.get_flushKey_self, Option.map_eq_some_iff] at found
      obtain ⟨old, there, rfl⟩ := found
      refine ⟨old, there, phase.trans ?_⟩
      obtain ⟨active, status⟩ := kept first List.mem_cons_self
      exact ⟨by simp [KeyObject.flush, written, active], by simp [KeyObject.flush, written, status]⟩
    · rw [Store.get_flushKey_other own] at found
      exact ⟨middle, found, phase⟩

/-- A row after an insertion was there before or is a new one. -/
theorem inserted_cases {next : Table KeyColumns} (objects : List KeyObject)
    (added : insertRows keys objects = some next) {row : KeyColumns}
    (stands : next.get? id = some row) :
    keys.get? id = some row ∨ ∃ key ∈ objects, key.current = row := by
  induction objects generalizing keys with
  | nil =>
    cases added
    exact .inl stands
  | cons first objects ih =>
    obtain ⟨middle, inserted, rest⟩ := Option.bind_eq_some_iff.mp added
    rcases ih rest with found | ⟨key, member, same⟩
    · rw [Table.get_insert inserted] at found
      split at found
      · exact .inr ⟨first, List.mem_cons_self, Option.some.inj found⟩
      · exact .inl found
    · exact .inr ⟨key, List.mem_cons_of_mem _ member, same⟩

/-- The session reads rows that are the store's. -/
theorem Kept.reads (kept : Kept history store) {event : Event (Op R) (Reply R)}
    (read : ∀ id, keep (rows history) event id = rows history id ∨
      keep (rows history) event id = store.keys.get? id) : Kept (history ++ [event]) store := by
  refine ⟨kept.phased, fun id row there known found => ?_⟩
  rw [rows_concat] at known
  rcases read id with same | same
  · exact kept.synced id row there (same ▸ known) found
  · rw [same, found] at known
    rw [Option.some.inj known]
    exact .refl row

theorem Kept.apart (kept : Kept history store) (op : Op R) (reply : Reply R op) (apart : Apart op) :
    Kept (history ++ [⟨op, reply⟩]) store := by
  refine kept.reads fun id => .inl ?_
  rw [← rows_concat, rows_apart history op reply apart]

/-- A commit of what an operation may. -/
theorem Kept.commit {batch : Commit} (kept : Kept history store) (present : store.Present batch)
    (admitted : Admitted (operation.enables = true) history batch)
    (heeded : Heeded operation history) :
    Kept (history ++ [(⟨.commit batch, true⟩ : Event (Op R) (Reply R))]) (store.apply batch) := by
  -- an object of the batch and the row that it leaves
  have wrote (key : KeyObject) (member : key ∈ batch.keys) (new : KeyColumns)
      (stands : (store.apply batch).keys.get? key.id = some new) :
      Phased key.current ∧ SamePhase new key.current := by
    have found : store.keys.get? key.id = some (store.keys.row key.id) :=
      Table.get_some.mpr ⟨ids_flushed batch.keys store.keys ▸ (Table.get_some.mp stands).1, rfl⟩
    have loaded := kept.synced key.id _ _ (admitted.kept key member) found
    obtain ⟨there, known, phase⟩ := phase_flushed batch.keys
      (fun other listed => admitted.single other listed key member) found (.inl loaded.symm)
    obtain rfl := Option.some.inj (known.symm.trans stands)
    refine ⟨?_, phase (.inl member)⟩
    exact (admitted.steps key member).phased (loaded.phased (kept.phased key.id _ found))
      (heeded.awake key) fun given => heeded.pardoned given.1 key given.2
  constructor
  · intro id row stands
    by_cases listed : ∃ key ∈ batch.keys, key.id = id
    · obtain ⟨key, member, rfl⟩ := listed
      obtain ⟨phased, same⟩ := wrote key member row stands
      exact same.phased phased
    · refine kept.phased id row (Eq.trans ?_ stands)
      exact (Store.get_foldl_other _ _ fun key member same => listed ⟨key, member, same.symm⟩).symm
  · intro id row there known stands
    rw [rows_concat] at known
    change ((batch.keys.find? fun key => key.id = id).map KeyObject.current).or
      (rows history id) = some row at known
    cases search : batch.keys.find? fun key => key.id = id with
    | some key =>
      rw [search] at known
      obtain rfl := Option.some.inj known
      have own : key.id = id := by simpa using List.find?_some search
      subst own
      exact (wrote key (List.mem_of_find?_eq_some search) there stands).2.symm
    | none =>
      rw [search] at known
      refine kept.synced id row there known (Eq.trans ?_ stands)
      refine (Store.get_foldl_other _ _ fun key member same => ?_).symm
      have other := List.find?_eq_none.mp search key member
      simp [same] at other

theorem Kept.clearRefresh (kept : Kept history store) (ids : List Nat) :
    Kept history { store with keys := Store.clearRefresh store.keys ids } := by
  have phase {id : Nat} {new : KeyColumns}
      (stands : (Store.clearRefresh store.keys ids).get? id = some new) :
      ∃ old, store.keys.get? id = some old ∧ SamePhase old new := by
    rw [Store.get_clearRefresh, Option.map_eq_some_iff] at stands
    obtain ⟨old, found, rfl⟩ := stands
    refine ⟨old, found, ?_⟩
    split <;> exact ⟨rfl, rfl⟩
  constructor
  · intro id row stands
    obtain ⟨old, found, same⟩ := phase stands
    exact same.symm.phased (kept.phased id old found)
  · intro id row there known stands
    obtain ⟨old, found, same⟩ := phase stands
    exact (kept.synced id row old known found).trans same

theorem Kept.purge (kept : Kept history store) (gone : Nat → KeyColumns → Bool) :
    Kept history { store with keys := store.keys.delete gone } := by
  have earlier {id : Nat} {row : KeyColumns} (stands : (store.keys.delete gone).get? id = some row) :
      store.keys.get? id = some row := by
    rw [Table.get_delete] at stands
    exact (Option.filter_eq_some_iff.mp stands).1
  exact ⟨fun id row stands => kept.phased id row (earlier stands),
    fun id row there known stands => kept.synced id row there known (earlier stands)⟩

theorem Kept.imported {inserted changed : List KeyObject} {next : Table KeyColumns}
    (phased : AllPhased store) (imported : Imported inserted changed)
    (added : insertRows store.keys inserted = some next) :
    Kept ([] : Exchange R) { store with keys := changed.foldl Store.flushKey next } := by
  refine ⟨fun id row stands => ?_, fun id row there known => nomatch known⟩
  obtain ⟨old, found, same⟩ := phase_kept changed imported.kept stands
  refine same.phased ?_
  rcases inserted_cases inserted added found with there | ⟨key, member, rfl⟩
  · exact phased id old there
  · exact imported.fresh key member

/-- One event of an operation. -/
theorem kept_step {event : Happening R}
    (allowed : Allowed (operation.enables = true) front event.op) (moved : moves before event after)
    (heeded : Heeded operation (inner front)) (kept : Kept (inner front) before) :
    Kept (inner (front ++ [event])) after := by
  obtain ⟨op | op, reply⟩ := event
  · rw [inner_append, inner_question]
    cases op with
    | listKeys =>
      obtain ⟨rfl, rfl | rfl⟩ := moved
      · exact kept.reads fun _ => .inl rfl
      · exact kept.reads fun _ => .inr rfl
    | readPool provider exclude =>
      obtain ⟨rfl, shown⟩ := moved
      cases reply with
      | none => exact kept.reads fun _ => .inl rfl
      | some view => exact kept.reads fun id => .inr (congrArg (Table.get? · id) (shown view rfl))
    | findKey other =>
      obtain ⟨rfl, rfl | rfl⟩ := moved
      · exact kept.reads fun _ => .inl rfl
      · refine kept.reads fun id => ?_
        by_cases same : other = id
        · exact .inr ((if_pos same).trans (same ▸ rfl))
        · exact .inl (if_neg same)
    | reload other =>
      obtain ⟨rfl, failed | found⟩ := moved
      · subst failed
        exact kept.reads fun _ => .inl rfl
      · cases reply with
        | none => exact kept.reads fun _ => .inl rfl
        | some row =>
          refine kept.reads fun id => ?_
          by_cases same : other = id
          · exact .inr ((if_pos same).trans (same ▸ found))
          · exact .inl (if_neg same)
    | commit batch =>
      obtain ⟨rfl, present, rfl⟩ | ⟨rfl, rfl⟩ := moved
      · exact kept.commit present allowed heeded
      · exact kept.reads fun _ => .inl rfl
    | clearRefresh ids =>
      have still : Kept (inner front ++ [⟨.clearRefresh ids, reply⟩]) before :=
        kept.apart (.clearRefresh ids) reply trivial
      obtain ⟨_, rfl⟩ | ⟨_, rfl⟩ := moved
      · exact still.clearRefresh ids
      · exact still
    | _ =>
      obtain rfl : after = before := moved
      apply kept.apart
      trivial
  · rw [inner_append, inner_admin, List.append_nil]
    cases op with
    | commitImport inserted changed =>
      obtain ⟨silent, imported⟩ := allowed
      obtain ⟨_, next, added, _, rfl⟩ | ⟨_, rfl⟩ := moved
      · rw [silent]
        exact Kept.imported kept.phased imported added
      · exact kept
    | purgeKey other =>
      obtain ⟨_, rfl⟩ | ⟨_, rfl⟩ := moved
      · exact kept.purge _
      · exact kept
    | _ =>
      obtain rfl : after = before := moved
      exact kept

/-- What an operation carries along. -/
def Carried (operation : Operation) (events : List (Happening R)) (store : Store) : Prop :=
  Heeded operation (inner events) → Kept (inner events) store

/-- One operation, up to any of its steps. -/
theorem operation_phased {control : ControlPlane R} {vault : KeyVault} {left : Endpoint R Unit}
    {events : List (Happening R)} (phased : AllPhased before)
    (reached : Reaches (operation.program control vault) events left)
    (followed : Follows moves before events after) (heeded : Heeded operation (inner events)) :
    AllPhased after := by
  have carried : Carried operation events after := by
    refine checked_run (operation.minds control vault) reached followed
      (fun _ => ⟨phased, fun id row there known => nomatch known⟩) ?_
    intro front event middle last allowed moved held heeded
    have earlier : Heeded operation (inner front) := by
      rw [inner_append] at heeded
      exact heeded.earlier
    exact kept_step allowed moved earlier (held earlier)
  exact (carried heeded).phased

/-- Rows that start in a phase stay in one through any sequence of operations. -/
theorem sequence_phased {start last : Store} {steps : List (Operation × List (Happening R))}
    (run : Sequence start steps last) (made : AllPhased start)
    (heeded : ∀ step ∈ steps, Heeded step.1 (inner step.2)) :
    ∀ id row, last.keys.get? id = some row → Phased row ∧ Coupled row := by
  suffices phased : AllPhased last from fun id row found =>
    ⟨phased id row found, (phased id row found).coupled⟩
  induction run with
  | nil => exact made
  | cons control vault reached followed rest ih =>
    have now := heeded _ List.mem_cons_self
    exact ih (operation_phased made reached followed now) fun step member =>
      heeded step (List.mem_cons_of_mem _ member)

/-- Nothing in the exchange was probed, and what was looked up was not condemned. -/
def harmless : Event (Op R) (Reply R) → Bool
  | ⟨.findKey _, some (some row)⟩ => decide (row.status ∉ condemnedStatuses)
  | ⟨.probe _ _, _⟩ => false
  | _ => true

theorem heeded_of_harmless (plain : history.all harmless = true) : Heeded operation history := by
  constructor
  · intro _ key found
    exact of_decide_eq_true (List.all_eq_true.mp plain _ found)
  · rintro key ⟨front, secret, json, text, back, _, rfl⟩
    have probed := List.all_eq_true.mp plain
      (⟨.probe key.id secret, .response 429 json text⟩ : Event (Op R) (Reply R)) (by simp)
    cases probed

/-- An update that only switches key 1. -/
def switching (isActive : Bool) : Operation :=
  .task (.updateKey [] false 1 { isActive := some isActive })

/-- What an operation does with a store whose statements all succeed. -/
def performed (config : AppConfig ℚ) (operation : Operation) (store : Store) :=
  (operation.program (openControl config) plainVault).execute (respond 0) store

theorem performed_sequence (config : AppConfig ℚ) (operation : Operation) (store : Store)
    {later : List (Operation × List (Happening ℚ))} {last : Store}
    (rest : Sequence (performed config operation store).2.2 later last) :
    Sequence store ((operation, (performed config operation store).1) :: later) last :=
  .cons (openControl config) plainVault (execute_ran (respond 0) _ store)
    (execute_follows (respond_honest 0) _ store) rest

def switchStart (row : KeyColumns) : Store :=
  { keys := Table.single 1 row, clients := Table.empty {} }

/-- A key is switched off and on again. -/
theorem switched_phased : ∃ row, ((performed {} (switching true) (performed {} (switching false)
    (switchStart { apiKeyCiphertext := [1] })).2.2).2.2).keys.get? 1 = some row ∧
      Phased row ∧ Coupled row := by
  have off : (inner (performed {} (switching false)
      (switchStart { apiKeyCiphertext := [1] })).1).all harmless = true := by decide +kernel
  have on : (inner (performed {} (switching true) (performed {} (switching false)
      (switchStart { apiKeyCiphertext := [1] })).2.2).1).all harmless = true := by decide +kernel
  have made : AllPhased (switchStart { apiKeyCiphertext := [1] }) := by
    intro id row found
    obtain ⟨_, rfl⟩ := Table.get_some.mp found
    exact ⟨.active, rfl, rfl⟩
  have found : (((performed {} (switching true) (performed {} (switching false)
      (switchStart { apiKeyCiphertext := [1] })).2.2).2.2).keys.get? 1).isSome = true := by
    decide +kernel
  obtain ⟨row, stands⟩ := Option.isSome_iff_exists.mp found
  refine ⟨row, stands, sequence_phased (performed_sequence {} _ _ (performed_sequence {} _ _ .nil))
    made ?_ 1 row stands⟩
  intro step member
  rcases List.mem_cons.mp member with rfl | later
  · exact heeded_of_harmless off
  · rw [List.mem_singleton.mp later]
    exact heeded_of_harmless on

/-- A key that was condemned is switched on: it is active and still counts as terminal. -/
theorem condemned_switched : ∃ row, ((performed {} (switching true) (switchStart
    { apiKeyCiphertext := [1], isActive := false, status := "invalid" })).2.2).keys.get? 1 = some row ∧
      ¬ Coupled row := by
  refine ⟨{ apiKeyCiphertext := [1], isActive := true, status := "invalid" }, by decide +kernel, ?_⟩
  unfold Coupled
  decide

end FcamGateway.KeyPhases
