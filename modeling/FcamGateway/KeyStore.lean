import FcamGateway.Session

/-! The database behind the sessions: what a statement replies in a state and
what a commit leaves. Statements may fail, and a failed one changes nothing. -/
namespace FcamGateway

structure Store where
  keys : Table KeyColumns
  clients : Table ClientColumns

namespace Store

/-- Flush one key object onto its row. -/
def flushKey (keys : Table KeyColumns) (key : KeyObject) : Table KeyColumns :=
  keys.modify key.id key.flush

def flushClient (clients : Table ClientColumns) : Option ClientObject → Table ClientColumns
  | none => clients
  | some client => clients.modify client.id client.flush

def apply (store : Store) (batch : Commit) : Store :=
  { keys := batch.keys.foldl flushKey store.keys
    clients := flushClient store.clients batch.client }

/-- A changed object whose row is gone makes the commit fail. -/
def Present (store : Store) (batch : Commit) : Prop :=
  ∀ key ∈ batch.keys, key.current ≠ key.loaded → key.id ∈ store.keys.ids

instance (store : Store) (batch : Commit) : Decidable (store.Present batch) :=
  inferInstanceAs (Decidable (∀ key ∈ batch.keys, key.current ≠ key.loaded → key.id ∈ store.keys.ids))

/-- `UPDATE api_keys SET next_refresh_at = NULL WHERE id IN ids`. -/
def clearRefresh (keys : Table KeyColumns) (ids : List Nat) : Table KeyColumns :=
  ids.foldl (fun keys id => keys.modify id fun row => { row with nextRefreshAt := none }) keys

variable {R : Type}

/-- The store may answer so, and stands in the last state afterwards. Questions
that are not about rows leave it alone and may get any reply. -/
def moves (store : Store) : Event (Op R) (Reply R) → Store → Prop
  | ⟨.listKeys, reply⟩, last => last = store ∧ (reply = none ∨ reply = some store.keys)
  | ⟨.findKey id, reply⟩, last => last = store ∧ (reply = none ∨ reply = some (store.keys.get? id))
  | ⟨.reload id, reply⟩, last => last = store ∧ (reply = none ∨ reply = store.keys.get? id)
  | ⟨.readPool _ _, reply⟩, last => last = store ∧
    ∀ view : PoolView R, reply = some view → view.keys = store.keys
  | ⟨.commit batch, reply⟩, last =>
    (reply = true ∧ store.Present batch ∧ last = store.apply batch) ∨ (reply = false ∧ last = store)
  | ⟨.clearRefresh ids, reply⟩, last =>
    (reply = some true ∧ last = { store with keys := clearRefresh store.keys ids }) ∨
      (reply ≠ some true ∧ last = store)
  | _, last => last = store

/-- A store whose statements all succeed, with a still clock, limiters that allow
everything and peers that never answer. -/
def answer [Field R] (now : Instant) (store : Store) : (op : Op R) → Reply R op × Store
  | .now => (now, store)
  | .monotonic => (0, store)
  | .readPool _ _ =>
    (some
      { keys := store.keys, now, storeRemaining := fun _ => none, peek := fun _ _ => none
        failures := fun _ => none, monotonic := fun _ => 0, cursor := 0, roll := 1, draw := 0 },
      store)
  | .keepFailures _ => ((), store)
  | .keepCursor _ _ => ((), store)
  | .readFailure _ => (none, store)
  | .findKey id => (some (store.keys.get? id), store)
  | .reload id => (store.keys.get? id, store)
  | .commit batch => if store.Present batch then (true, store.apply batch) else (false, store)
  | .flushSnapshot _ => (some 1, store)
  | .allow _ _ => (some (true, 0), store)
  | .acquire _ _ => (some true, store)
  | .release _ => ((), store)
  | .request _ _ => (.timeout, store)
  | .probe _ _ => (.timeout, store)
  | .probeAll _ _ => (fun _ => (now, .timeout), store)
  | .setCooldown _ _ => ((), store)
  | .readWindow _ => (none, store)
  | .keepWindow _ _ _ => ((), store)
  | .readRefresh _ => (none, store)
  | .keepRefresh _ _ => ((), store)
  | .listKeys => (some store.keys, store)
  | .clearRefresh ids => (some true, { store with keys := clearRefresh store.keys ids })
  | .deleteSnapshots _ => ((), store)
  | .handlerCommits => (false, store)

theorem answer_honest [Field R] (now : Instant) (store : Store) (op : Op R) :
    store.moves ⟨op, (store.answer now op).1⟩ (store.answer now op).2 := by
  cases op with
  | commit batch =>
    simp only [answer, moves]
    split
    · rename_i present
      exact .inl ⟨rfl, present, rfl⟩
    · exact .inr ⟨rfl, rfl⟩
  | _ => simp [answer, moves]

variable {keys : Table KeyColumns} {key : KeyObject} {id : Nat}

@[simp] theorem ids_flushKey : (flushKey keys key).ids = keys.ids := rfl

theorem get_flushKey_other (different : id ≠ key.id) :
    (flushKey keys key).get? id = keys.get? id :=
  Table.get_modify_other different

theorem get_flushKey_self (keys : Table KeyColumns) (key : KeyObject) :
    (flushKey keys key).get? key.id = (keys.get? key.id).map key.flush :=
  Table.get_modify_self

/-- A row object that was assigned nothing leaves its row alone. -/
theorem flush_clean (clean : key.current = key.loaded) (row : KeyColumns) :
    key.flush row = row := by
  simp [KeyObject.flush, written, clean]

/-- A commit of changes to a row as it was read. -/
theorem get_flushKey_loaded (found : keys.get? key.id = some key.loaded) :
    (flushKey keys key).get? key.id = some key.current := by
  rw [get_flushKey_self, found, Option.map_some, KeyObject.flush_loaded]

/-- A commit leaves the rows alone whose objects it does not hold. -/
theorem get_foldl_other (objects : List KeyObject) (keys : Table KeyColumns)
    (different : ∀ key ∈ objects, id ≠ key.id) :
    (objects.foldl flushKey keys).get? id = keys.get? id := by
  induction objects generalizing keys with
  | nil => rfl
  | cons key objects ih =>
    rw [List.foldl_cons, ih _ fun other member => different other (List.mem_cons_of_mem _ member)]
    exact get_flushKey_other (different key List.mem_cons_self)

theorem get_clearRefresh (ids : List Nat) (keys : Table KeyColumns) (id : Nat) :
    (clearRefresh keys ids).get? id =
      (keys.get? id).map fun row => if id ∈ ids then { row with nextRefreshAt := none } else row := by
  induction ids generalizing keys with
  | nil => simp [clearRefresh]
  | cons first ids ih =>
    change (clearRefresh _ ids).get? id = _
    rw [ih, Table.get_modify]
    by_cases same : id = first
    · simp only [same, ↓reduceIte, Option.map_map, List.mem_cons, true_or]
      congr 1
      funext row
      simp only [Function.comp]
      split <;> rfl
    · simp only [same, ↓reduceIte, List.mem_cons, false_or]

end Store

/-- A cipher that opens every blob, for runs on concrete rows. -/
def openCipher : Foreign :=
  { decryptApiKey := fun _ _ => .ok "secret", parseJson := fun _ => none
    fromIsoFormat := fun _ => none, pyStr := fun _ => "", payloadError := fun _ => "" }

end FcamGateway
