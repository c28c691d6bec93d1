import FcamGateway.AdminVerdicts
import FcamGateway.Interleaving

/-! The work that reads and writes key rows, as threads over one database: forwards, key
tests, refreshes, imports and quota resets, and the administration's own updates. -/
namespace FcamGateway.KeyTasks
open Prog Credits CreditRefresh Forwarder KeyAdmin KeyVerdicts

set_option linter.unusedSectionVars false

variable {R : Type} [Field R] [LinearOrder R] [ScoreMath R]

/-- What a thread does, with the request that asks for it. -/
inductive Task where
  | forward (call : Call)
  | testKey (requestId : String) (keyId : Nat) (mode testUrl : String)
  | refreshOnce
  | refreshKeyCredits (keyId : Nat)
  | refreshAllCredits (keyIds : List Nat) (force : Bool)
  | importKeysText (nonce : Nat → Bytes) (today : Int) (payload : ImportKeysTextRequest)
  | resetKeysQuota (today : Int)
  | updateKey (nonce : Bytes) (duplicate : Bool) (keyId : Nat) (payload : UpdateKeyRequest)
  | batchKeys (payload : BatchKeysRequest)
  | reviveKey (requestId : String) (keyId : Nat) (payload : ReviveKeyRequest)

/-- An administrator's decision on the state of keys. -/
def Task.Administrative : Task → Prop
  | .updateKey .. => True
  | .batchKeys _ => True
  | .reviveKey .. => True
  | _ => False

/-- A forward and the commit of the request's handler, which writes what the forward left
changed in the session. -/
def forwardAndCommit (setup : Setup R) (call : Call) : Gateway R Unit := do
  let result ← forward setup call
  let _ ← query (.commit { site := .handler, keys := result.unsaved })

/-- The round runs only where the gateway has a master key. -/
def refreshRound (setup : Setup R) : Gateway R Unit :=
  match setup.masterKey with
  | none => return
  | some masterKey => refreshOnce setup.foreign setup.config setup.runtime masterKey

/-- A task whose outcome does not matter here. -/
def ended (program : Endpoint R Value) : Endpoint R Unit := program.bind fun _ => .done ()

def Task.program (control : ControlPlane R) (vault : KeyVault) : Task → Endpoint R Unit
  | .forward call => gateway (forwardAndCommit control.setup call)
  | .testKey requestId keyId mode testUrl =>
    ended (gateway (testKeyEndpoint control requestId keyId mode testUrl))
  | .refreshOnce => gateway (refreshRound control.setup)
  | .refreshKeyCredits keyId => ended (gateway (KeyAdmin.refreshKeyCredits control keyId))
  | .refreshAllCredits keyIds force =>
    ended (gateway (KeyAdmin.refreshAllCredits control keyIds force))
  | .importKeysText nonce today payload =>
    ended (KeyAdmin.importKeysText control vault nonce today payload)
  | .resetKeysQuota today => ended (gateway (KeyAdmin.resetKeysQuota today))
  | .updateKey nonce duplicate keyId payload =>
    ended (gateway (KeyAdmin.updateKey control vault nonce duplicate keyId payload))
  | .batchKeys payload => ended (KeyAdmin.batchKeys payload)
  | .reviveKey requestId keyId payload =>
    ended (gateway (KeyAdmin.reviveKey control requestId keyId payload))

/-- The questions that a task reads ciphertexts with. A round looks rows up again when it
applies results, but its verdicts are on what it listed. -/
def Task.reads : Task → Op R → Prop
  | .refreshOnce => Lists
  | _ => Reads

/-- How a task has to find a key that it uses. -/
def Task.offer : Task → KeyColumns → Prop
  | .forward _ => fun row => row.isActive = true
  | _ => fun _ => True

abbrev Happening (R : Type) := Event (Question R) (Answer R)

/-- The gateway's questions of an exchange. -/
def inner (events : List (Happening R)) : Exchange R :=
  events.filterMap fun event =>
    match event with
    | ⟨.inl op, reply⟩ => some ⟨op, reply⟩
    | ⟨.inr _, _⟩ => none

@[simp] theorem inner_append (front back : List (Happening R)) :
    inner (front ++ back) = inner front ++ inner back :=
  List.filterMap_append

@[simp] theorem inner_question (op : Op R) (reply : Reply R op) :
    inner [(⟨.inl op, reply⟩ : Happening R)] = [⟨op, reply⟩] := rfl

@[simp] theorem inner_admin (op : AdminOp) (reply : AdminReply op) :
    inner [(⟨.inr op, reply⟩ : Happening R)] = [] := rfl

/-- What a task other than an administrator's may ask after its exchange so far. -/
def Watched (control : ControlPlane R) (task : Task) (events : List (Happening R)) :
    Question R → Prop
  | .inl op => Demand control.setup.foreign (control.setup.masterKey.getD []) task.reads task.offer
    (inner events) op
  | .inr (.commitImport _ changed) => Harmless changed
  | .inr (.purgeKey _) => False
  | .inr _ => True

/-- The gateway's functions keep their monitor among an endpoint's questions. -/
theorem wp_gateway {demands : List (Happening R) → Question R → Prop}
    {given : Exchange R → Op R → Prop} {post : Except Exn Value → Exchange R → Prop}
    (lifted : ∀ events op, given (inner events) op → demands events (.inl op))
    {program : Gateway R Value} {events : List (Happening R)}
    (met : program.wp (.checking given) post (inner events)) :
    (gateway program).wp (.checking demands) (fun outcome last => post outcome (inner last))
      events := by
  induction program generalizing events with
  | done value => exact met
  | raise error => exact met
  | ask op next ih =>
    obtain ⟨asked, rest⟩ := (wp_check op next).mp met
    refine (wp_check _ _).mpr ⟨lifted events op asked, fun reply => ih reply ?_⟩
    rw [inner_append, inner_question]
    exact rest reply

theorem wp_ended {demands : List (Happening R) → Question R → Prop} {program : Endpoint R Value}
    {events : List (Happening R)} (met : program.wp (.checking demands) (fun _ _ => True) events) :
    (ended program).wp (.checking demands) (fun _ _ => True) events := by
  refine (wp_bind _).mpr (wp_mono ?_ met)
  rintro (error | value) last _ <;> trivial

/-- Only mild changes are in the session of an import. -/
def Tidy (session : ImportSession) : Prop := Harmless (session.inserted ++ session.changed)

theorem harmless_fresh (id : Nat) (row : KeyColumns) : Harmless [KeyObject.fresh id row] := by
  intro key member
  rw [List.mem_singleton.mp member]
  refine ⟨⟨fun on => on, rfl⟩, ?_⟩
  rintro (⟨off, on⟩ | ⟨_, changed⟩)
  · exact Bool.false_ne_true (off.symm.trans on)
  · exact changed rfl

theorem Tidy.object {session : ImportSession} (tidy : Tidy session) (id : Nat) (row : KeyColumns) :
    Harmless [session.object id row] := by
  intro key member
  rw [List.mem_singleton.mp member]
  unfold ImportSession.object
  cases found : (session.inserted ++ session.changed).find? (·.id = id) with
  | none => exact harmless_fresh id row _ (List.mem_singleton_self _)
  | some key => exact tidy key (List.mem_of_find?_eq_some found)

theorem Tidy.keep {session : ImportSession} {key : KeyObject} (tidy : Tidy session)
    (mild : Harmless [key]) : Tidy (session.keep key) := by
  have own := mild key (List.mem_singleton_self _)
  unfold ImportSession.keep
  split
  · refine List.forall_mem_append.mpr ⟨fun other member => ?_, fun other member =>
      tidy other (List.mem_append_right _ member)⟩
    obtain ⟨old, inside, rfl⟩ := List.mem_map.mp member
    split
    · exact own
    · exact tidy old (List.mem_append_left _ inside)
  · refine List.forall_mem_append.mpr ⟨fun other member =>
      tidy other (List.mem_append_left _ member), List.forall_mem_append.mpr ⟨fun other member => ?_, ?_⟩⟩
    · exact tidy other (List.mem_append_right _ (List.mem_of_mem_filter member))
    · exact mild

/-- What an import may ask. -/
def Imports : Question R → Prop
  | .inr (.commitImport _ changed) => Harmless changed
  | .inr (.purgeKey _) => False
  | .inr _ => True
  | .inl _ => False

theorem asks_closeMerge {session : ImportSession} (tidy : Tidy session) (item : ParsedKeyLine) :
    (closeMerge (R := R) session item).Asks Imports (fun _ => True) Tidy := by
  refine ⟨trivial, fun closed => ?_⟩
  cases closed <;> exact tidy

theorem asks_mergeItem {session : ImportSession} (tidy : Tidy session) (item : ParsedKeyLine)
    (row : KeyColumns) :
    (mergeItem (R := R) session item row).Asks Imports (fun _ => True) Tidy := by
  unfold mergeItem
  refine ⟨trivial, fun found => ?_⟩
  rcases found with message | _ | ⟨id, stored⟩
  · exact tidy
  · apply asks_closeMerge
    exact tidy
  · have existing := tidy.object id stored
    have filled : Harmless [(session.object id stored).assign (fillAccount row)] := by
      intro key member
      rw [List.mem_singleton.mp member]
      obtain ⟨kept, mild⟩ := existing _ (List.mem_singleton_self _)
      exact ⟨⟨kept.dormant, kept.sealed⟩, mild⟩
    simp only [Prog.bind]
    split
    · apply asks_closeMerge
      exact tidy
    · refine ⟨trivial, fun failed => ?_⟩
      cases failed with
      | some message => exact tidy
      | none => exact Tidy.keep tidy filled

theorem asks_importItem {session : ImportSession} (tidy : Tidy session) (item : ParsedKeyLine)
    (row : KeyColumns) :
    (importItem (R := R) session item row).Asks Imports (fun _ => True) Tidy := by
  unfold importItem
  refine ⟨trivial, fun reply => ?_⟩
  cases reply with
  | added id =>
    refine ⟨trivial, fun closed => ?_⟩
    rcases closed with _ | ⟨_ | _, message⟩
    · refine List.forall_mem_append.mpr ⟨List.forall_mem_append.mpr ⟨fun key member =>
        tidy key (List.mem_append_left _ member), harmless_fresh id row⟩, fun key member =>
          tidy key (List.mem_append_right _ member)⟩
    · exact tidy
    · apply asks_mergeItem
      exact tidy
  | duplicate => exact asks_mergeItem tidy item row
  | failed message => exact tidy

theorem asks_importItems (vault : KeyVault) (masterKey : Bytes) (nonce : Nat → Bytes) (today : Int)
    (payload : ImportKeysTextRequest) (items : List ParsedKeyLine) {session : ImportSession}
    (tidy : Tidy session) :
    (importItems (R := R) vault masterKey nonce today payload session items).Asks Imports
      (fun _ => True) Tidy := by
  induction items generalizing session with
  | nil => exact tidy
  | cons item rest ih => exact asks_bind (asks_importItem tidy item _) fun session tidy => ih tidy

theorem asks_importKeysText (control : ControlPlane R) (vault : KeyVault) (nonce : Nat → Bytes)
    (today : Int) (payload : ImportKeysTextRequest) :
    (importKeysText control vault nonce today payload).Asks Imports (fun _ => True)
      fun _ => True := by
  unfold importKeysText
  split
  · trivial
  · split
    · trivial
    · split
      · trivial
      · refine asks_bind (asks_importItems vault _ nonce today payload payload.items
          fun key member => absurd member List.not_mem_nil) fun session tidy => ?_
        refine ⟨fun key member => tidy key (List.mem_append_right _ member), fun written => ?_⟩
        cases written <;> trivial

/-- Every question of a task that is no administrator's decision is watched. -/
theorem task_watched (control : ControlPlane R) (vault : KeyVault) (task : Task)
    (plain : ¬ task.Administrative) :
    (task.program control vault).wp (.checking (Watched control task)) (fun _ _ => True) [] := by
  have known : ∀ other, control.setup.masterKey = some other →
      other = control.setup.masterKey.getD [] := by
    intro other same
    rw [same]
    rfl
  have lifted (events : List (Happening R)) (op : Op R)
      (met : Demand control.setup.foreign (control.setup.masterKey.getD []) task.reads task.offer
        (inner events) op) : Watched control task events (.inl op) := met
  cases task with
  | forward call =>
    have met : (forwardAndCommit control.setup call).wp (watching control.setup.foreign
        (control.setup.masterKey.getD []) Reads fun row => row.isActive = true)
        (fun _ _ => True) (inner []) := by
      refine (wp_bind _).mpr (wp_mono ?_ (wp_forward control.setup call known fun row on => on))
      rintro (error | result) last harmless
      · trivial
      · refine wp_put _ _ (fun key member => ?_) fun written => trivial
        obtain ⟨kept, mild⟩ := harmless key member
        exact ⟨kept, fun condemns => absurd condemns mild⟩
    exact wp_gateway lifted met
  | testKey requestId keyId mode testUrl =>
    exact wp_ended (wp_gateway lifted (wp_testKeyEndpoint control requestId keyId mode testUrl known))
  | refreshOnce =>
    have met : (refreshRound control.setup).wp (watching control.setup.foreign
        (control.setup.masterKey.getD []) Lists fun _ => True) (fun _ _ => True)
        (inner []) := by
      unfold refreshRound
      split
      · trivial
      · rename_i masterKey same
        obtain rfl := known masterKey same
        exact wp_refreshOnce control.setup.config control.setup.runtime
    exact wp_gateway lifted met
  | refreshKeyCredits keyId =>
    exact wp_ended (wp_gateway lifted (wp_refreshKeyCredits control keyId known))
  | refreshAllCredits keyIds force =>
    exact wp_ended (wp_gateway lifted (wp_refreshAllCredits control keyIds force known))
  | importKeysText nonce today payload =>
    refine wp_ended ?_
    have keeps (op : Question R) (asked : Imports op) :
        (Monitor.checking (Watched control (.importKeysText nonce today payload))).Keeps
          (fun _ => True) op := by
      refine fun events _ => ⟨?_, fun _ _ _ => trivial⟩
      cases op with
      | inl op => exact absurd asked id
      | inr op => cases op <;> exact asked
    exact wp_mono (fun _ _ _ => trivial)
      (wp_asks (asks_importKeysText control vault nonce today payload) keeps trivial)
  | resetKeysQuota today =>
    exact wp_ended (wp_gateway lifted (wp_resetKeysQuota today))
  | updateKey => exact absurd trivial plain
  | batchKeys => exact absurd trivial plain
  | reviveKey => exact absurd trivial plain

/-- Insert rows under the keys they were given. -/
def insertRows : Table KeyColumns → List KeyObject → Option (Table KeyColumns)
  | keys, [] => some keys
  | keys, key :: rest => (keys.insert? key.id key.current).bind (insertRows · rest)

/-- The store may answer so, and stands in the last state afterwards. The statements inside an
import's transaction change nothing yet, and may see what the transaction holds. -/
def moves (store : Store) : Happening R → Store → Prop
  | ⟨.inl op, reply⟩, last => store.moves ⟨op, reply⟩ last
  | ⟨.inr (.commitImport inserted changed), reply⟩, last =>
    (reply = true ∧ ∃ keys, insertRows store.keys inserted = some keys ∧
      (∀ key ∈ changed, key.id ∈ keys.ids) ∧
      last = { store with keys := changed.foldl Store.flushKey keys }) ∨ (reply = false ∧ last = store)
  | ⟨.inr (.purgeKey id), reply⟩, last =>
    (reply = true ∧ last = { store with keys := store.keys.delete fun other _ => other = id }) ∨
      (reply = false ∧ last = store)
  | ⟨.inr _, _⟩, last => last = store

/-- A store whose statements all succeed. -/
def respond (now : Instant) (store : Store) : (question : Question R) → Answer R question × Store
  | .inl op => store.answer now op
  | .inr (.insertKey _) => (.added store.keys.nextId, store)
  | .inr (.findHash _) => (.ok none, store)
  | .inr .closeNested => (.released, store)
  | .inr (.flushKey _) => (none, store)
  | .inr (.commitImport _ _) => (false, store)
  | .inr (.purgeKey id) => (true, { store with keys := store.keys.delete fun other _ => other = id })

theorem respond_honest (now : Instant) (store : Store) (question : Question R) :
    moves store ⟨question, (respond now store question).1⟩ (respond now store question).2 := by
  cases question with
  | inl op => exact store.answer_honest now op
  | inr op =>
    cases op with
    | purgeKey id => exact .inl ⟨rfl, rfl⟩
    | commitImport inserted changed => exact .inr ⟨rfl, rfl⟩
    | _ => rfl

variable {store one other : Store} {event : Happening R}

/-- A reply settles what the store becomes. -/
theorem moves_unique (first : moves store event one) (second : moves store event other) :
    one = other := by
  obtain ⟨op | op, reply⟩ := event
  · cases op with
    | listKeys => exact first.1.trans second.1.symm
    | findKey id => exact first.1.trans second.1.symm
    | reload id => exact first.1.trans second.1.symm
    | readPool provider exclude => exact first.1.trans second.1.symm
    | commit batch =>
      obtain ⟨yes, _, rfl⟩ | ⟨no, rfl⟩ := first <;> obtain ⟨yes', _, rfl⟩ | ⟨no', rfl⟩ := second
      · rfl
      · cases yes.symm.trans no'
      · cases yes'.symm.trans no
      · rfl
    | clearRefresh ids =>
      obtain ⟨yes, rfl⟩ | ⟨no, rfl⟩ := first <;> obtain ⟨yes', rfl⟩ | ⟨no', rfl⟩ := second
      · rfl
      · exact absurd yes no'
      · exact absurd yes' no
      · rfl
    | _ => exact Eq.trans first (Eq.symm second)
  · cases op with
    | commitImport inserted changed =>
      obtain ⟨yes, keys, added, _, rfl⟩ | ⟨no, rfl⟩ := first <;>
        obtain ⟨yes', keys', added', _, rfl⟩ | ⟨no', rfl⟩ := second
      · rw [added] at added'
        cases added'
        rfl
      · cases yes.symm.trans no'
      · cases yes'.symm.trans no
      · rfl
    | purgeKey id =>
      obtain ⟨yes, rfl⟩ | ⟨no, rfl⟩ := first <;> obtain ⟨yes', rfl⟩ | ⟨no', rfl⟩ := second
      · rfl
      · cases yes.symm.trans no'
      · cases yes'.symm.trans no
      · rfl
    | _ => exact Eq.trans first (Eq.symm second)

theorem follows_unique {events : List (Happening R)} (first : Follows moves store events one)
    (second : Follows moves store events other) : one = other := by
  induction first with
  | nil =>
    cases second
    rfl
  | cons moved _ ih =>
    obtain _ | ⟨moved', rest⟩ := second
    obtain rfl := moves_unique moved moved'
    exact ih rest

/-- The threads' programs. -/
abbrev programs (control : Thread → ControlPlane R) (vault : KeyVault) (tasks : Thread → Task)
    (thread : Thread) : Endpoint R Unit :=
  (tasks thread).program (control thread) vault

/-- Where a plain task asks, it was allowed to. -/
theorem asking_watched {Thread : Type} [DecidableEq Thread] {control : Thread → ControlPlane R}
    {vault : KeyVault} {tasks : Thread → Task} {front : Trace Thread (Question R) (Answer R)}
    {thread : Thread} {question : Question R} (plain : ¬ (tasks thread).Administrative)
    (asking : Asking (programs control vault tasks) front thread question) :
    Watched (control thread) (tasks thread) (own thread front) question :=
  asking.checked (task_watched (control thread) vault (tasks thread) plain)

/-- The row that a reading brings is the store's, and the store stays as it is. -/
theorem moves_loaded {store last : Store} {id : Nat} {load : Event (Op R) (Reply R)}
    {row : KeyColumns} (loaded : loadedRow id load = some row) (moved : store.moves load last) :
    store.keys.get? id = some row ∧ last = store := by
  obtain ⟨op, reply⟩ := load
  cases op with
  | readPool provider exclude =>
    cases reply with
    | none => cases loaded
    | some view =>
      obtain ⟨same, keys⟩ := moved
      rw [← keys view rfl]
      exact ⟨loaded, same⟩
  | findKey other =>
    obtain ⟨same, failed | found⟩ := moved
    · cases failed
      cases loaded
    · cases found
      simp only [loadedRow] at loaded
      split at loaded
      · rename_i equal
        exact ⟨equal ▸ loaded, same⟩
      · cases loaded
  | listKeys =>
    obtain ⟨same, failed | found⟩ := moved
    · cases failed
      cases loaded
    · cases found
      exact ⟨loaded, same⟩
  | reload other =>
    simp only [loadedRow] at loaded
    split at loaded
    · rename_i equal
      obtain ⟨same, failed | found⟩ := moved
      · cases failed.symm.trans loaded
      · exact ⟨equal ▸ (found.symm.trans loaded), same⟩
    · cases loaded
  | _ => cases loaded

end FcamGateway.KeyTasks
