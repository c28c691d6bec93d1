import FcamGateway.ForwardAttribution
import FcamGateway.ForwardEffects

/-! What a forward leaves alone in the database: the rows of other clients, and the rows of keys
that it neither sent a request with nor failed to decrypt, but for an expired cooldown that a
selection clears. A key that answered only with a response about the request is left alone too. -/
namespace FcamGateway.ForwardEffects
open Prog Credits Upstream Forwarder

set_option linter.unusedSectionVars false

variable {R : Type} [Field R] [LinearOrder R] [ScoreMath R]

/-- The responses to the requests with the key. -/
def responses (id : Nat) (events : Exchange R) : List UpstreamResponse :=
  (replies events).filterMap fun
    | (other, .response resp) => if other = id then some resp else none
    | _ => none

/-- The key did not decrypt: its row object was committed so, and the cipher refuses it. -/
def Undecryptable (setup : Setup R) (events : Exchange R) (id : Nat) : Prop :=
  ∃ masterKey key written error, setup.masterKey = some masterKey ∧
    (⟨.commit { site := .decryptFailed, keys := [key] }, written⟩ : Event (Op R) (Reply R)) ∈ events ∧
    key.id = id ∧ setup.foreign.decryptApiKey masterKey key.current.apiKeyCiphertext = .error error

/-- The view is of a reading of the pool in the exchange. -/
def ReadIn (events : Exchange R) (view : PoolView R) : Prop :=
  ∃ provider exclude,
    (⟨.readPool provider exclude, some view⟩ : Event (Op R) (Reply R)) ∈ events

/-- The row is as it was, but that a selection may have cleared its expired cooldown. -/
def Rests (events : Exchange R) (id : Nat) (before after : Option KeyColumns) : Prop :=
  after = before ∨ ∃ view row, ReadIn events view ∧ before = some row ∧
    KeyPool.isCooling row = true ∧ KeyPool.remainingSeconds view (KeyObject.fresh id row) ≤ 0 ∧
    after = some (KeyPool.reactivate (KeyObject.fresh id row)).current

/-- No failure of the key is recorded: its score memory is only rewritten with what a selection
finds it decayed to, and its failure window not at all. -/
structure Unrecorded (events : Exchange R) (id : Nat) : Prop where
  score : ∀ updates reply, (⟨.keepFailures updates, reply⟩ : Event (Op R) (Reply R)) ∈ events →
    ∀ value, (id, value) ∈ updates → ∃ view halfLife, ReadIn events view ∧
      value = (KeyPool.failureCount (view.failures id) (view.monotonic id) halfLife).2
  window : ∀ count firstAt reply,
    (⟨.keepWindow id count firstAt, reply⟩ : Event (Op R) (Reply R)) ∉ events

variable {events front back early late : Exchange R} {view : PoolView R} {id : Nat}
  {key : KeyObject} {store middle last : Store} {setup : Setup R} {call : Call}

/-- Where no rows are written, the database stays. -/
theorem follows_unwritten (unwritten : ∀ event ∈ late, ¬ Writes event.op)
    (followed : Follows Store.moves store late last) : last = store := by
  induction late generalizing store with
  | nil =>
    cases followed
    rfl
  | cons event late ih =>
    obtain _ | ⟨moved, followed⟩ := followed
    rw [ih (fun other member => unwritten other (List.mem_cons_of_mem _ member)) followed]
    have quiet := unwritten event List.mem_cons_self
    obtain ⟨op, reply⟩ := event
    cases op with
    | commit batch => exact absurd trivial quiet
    | clearRefresh ids => exact absurd trivial quiet
    | listKeys => exact moved.1
    | findKey id => exact moved.1
    | reload id => exact moved.1
    | readPool provider exclude => exact moved.1
    | _ => exact moved

/-- A fresh view shows the rows as they are. -/
theorem Fresh.current (fresh : Fresh events view)
    (followed : Follows Store.moves store events last) : view.keys = last.keys := by
  obtain ⟨early, late, provider, exclude, rfl, unwritten⟩ := fresh
  obtain ⟨middle, _, followed⟩ := (follows_append early _).mp followed
  obtain _ | ⟨moved, followed⟩ := followed
  rw [follows_unwritten unwritten followed, moved.1]
  exact moved.2 view rfl

theorem Fresh.readIn (fresh : Fresh events view) : ReadIn events view := by
  obtain ⟨early, late, provider, exclude, rfl, _⟩ := fresh
  exact ⟨provider, exclude, List.mem_append_right _ List.mem_cons_self⟩

theorem ReadIn.grown (read : ReadIn front view) (back : Exchange R) :
    ReadIn (front ++ back) view := by
  obtain ⟨provider, exclude, member⟩ := read
  exact ⟨provider, exclude, List.mem_append_left _ member⟩

/-- Flushing the same object again changes nothing. -/
theorem flush_current (key : KeyObject) : key.flush key.current = key.current := by
  simp only [KeyObject.flush, written, ite_self]

/-- A commit in which all objects of a row are one object writes that object or leaves the row. -/
theorem get_foldl_same (objects : List KeyObject) (keys : Table KeyColumns)
    (same : ∀ other ∈ objects, other.id = key.id → other = key)
    (held : keys.get? key.id = some key.loaded ∨ keys.get? key.id = some key.current) :
    (objects.foldl Store.flushKey keys).get? key.id = keys.get? key.id ∨
      (objects.foldl Store.flushKey keys).get? key.id = some key.current := by
  induction objects generalizing keys with
  | nil => exact .inl rfl
  | cons first objects ih =>
    have same' (other : KeyObject) (member : other ∈ objects) :=
      same other (List.mem_cons_of_mem _ member)
    rw [List.foldl_cons]
    by_cases own : first.id = key.id
    · obtain rfl := same first List.mem_cons_self own
      have written : (Store.flushKey keys first).get? first.id = some first.current := by
        rw [Store.get_flushKey_self]
        rcases held with held | held
        · rw [held, Option.map_some, KeyObject.flush_loaded]
        · rw [held, Option.map_some, flush_current]
      rcases ih _ same' (.inr written) with kept | kept
      · exact .inr (kept.trans written)
      · exact .inr kept
    · have other : (Store.flushKey keys first).get? key.id = keys.get? key.id :=
        Store.get_flushKey_other fun equal => own equal.symm
      rw [← other] at held
      rcases ih _ same' held with kept | kept
      · exact .inl (kept.trans other)
      · exact .inr kept

/-- The objects that a selection reactivates are of the rows that it read. -/
theorem mem_reactivated {weights : KeyPool.Weights R} {provider : String} {exclude : List Nat}
    (member : key ∈ (KeyPool.scanKeys view weights provider exclude).reactivated) :
    ∃ row, view.keys.get? key.id = some row ∧ KeyPool.isCooling row = true ∧
      KeyPool.remainingSeconds view (KeyObject.fresh key.id row) ≤ 0 ∧
      key = KeyPool.reactivate (KeyObject.fresh key.id row) := by
  obtain ⟨loaded, listed, rfl, _, _, cooling, rested⟩ := KeyPool.reactivated_rested member
  obtain ⟨found, clean, _⟩ := KeyPool.mem_providerKeys.mp listed
  have same : loaded = KeyObject.fresh loaded.id loaded.loaded := by
    cases loaded
    simp_all [KeyObject.fresh]
  refine ⟨loaded.loaded, found, clean ▸ cooling, ?_, ?_⟩
  · rw [KeyPool.id_reactivate, ← same]
    exact rested
  · rw [KeyPool.id_reactivate, ← same]

/-- The question touches the row of the key at most by reactivating what was just read. -/
def Spares (id : Nat) (events : Exchange R) : Op R → Prop
  | .commit batch => (∃ (view : PoolView R) (weights : KeyPool.Weights R) (provider : String)
      (exclude : List Nat), Fresh events view ∧
        batch.keys = (KeyPool.scanKeys view weights provider exclude).reactivated) ∨
      ∀ key ∈ batch.keys, id ≠ key.id
  | .clearRefresh _ => False
  | _ => True

theorem Rests.grown {before after : Option KeyColumns} (rests : Rests front id before after)
    (back : Exchange R) : Rests (front ++ back) id before after := by
  rcases rests with same | ⟨view, row, read, rest⟩
  · exact .inl same
  · exact .inr ⟨view, row, read.grown back, rest⟩

/-- A row that was read just now and is reactivated rests. -/
theorem Rests.reactivated {before : Option KeyColumns} {row : KeyColumns} (read : ReadIn events view)
    (rests : Rests events id before (some row)) (cooling : KeyPool.isCooling row = true)
    (rested : KeyPool.remainingSeconds view (KeyObject.fresh id row) ≤ 0) :
    Rests events id before (some (KeyPool.reactivate (KeyObject.fresh id row)).current) := by
  rcases rests with same | ⟨_, other, _, _, _, _, cleared⟩
  · exact .inr ⟨view, row, read, same.symm, cooling, rested, rfl⟩
  · rw [Option.some.inj cleared, KeyPool.cooling_reactivate] at cooling
    exact absurd cooling Bool.false_ne_true

/-- A commit of what a selection reactivates. -/
theorem rests_reactivation {before : Option KeyColumns} {weights : KeyPool.Weights R}
    {provider : String} {exclude : List Nat} (keys : Table KeyColumns) (shown : view.keys = keys)
    (read : ReadIn events view) (rests : Rests events id before (keys.get? id)) :
    Rests events id before (((KeyPool.scanKeys view weights provider exclude).reactivated.foldl
      Store.flushKey keys).get? id) := by
  by_cases listed : ∃ key ∈ (KeyPool.scanKeys view weights provider exclude).reactivated, key.id = id
  · obtain ⟨key, member, rfl⟩ := listed
    obtain ⟨row, found, cooling, rested, whole⟩ := mem_reactivated member
    rw [shown] at found
    have same (other : KeyObject)
        (listed : other ∈ (KeyPool.scanKeys view weights provider exclude).reactivated)
        (own : other.id = key.id) : other = key := by
      obtain ⟨again, twice, _, _, made⟩ := mem_reactivated listed
      rw [shown, own, found] at twice
      rw [made, own, ← Option.some.inj twice, ← whole]
    have loaded : key.loaded = row := by
      rw [whole]
      rfl
    rcases get_foldl_same _ keys same (.inl (loaded ▸ found)) with kept | kept
    · rw [kept]
      exact rests
    · rw [kept, whole]
      rw [found] at rests
      exact rests.reactivated read cooling rested
  · rw [Store.get_foldl_other _ _ fun key member same => listed ⟨key, member, same.symm⟩]
    exact rests

/-- One question that spares the key. -/
theorem rests_step {before : Option KeyColumns} {op : Op R} {reply : Reply R op}
    (rests : Rests events id before (middle.keys.get? id)) (spares : Spares id events op)
    (followed : Follows Store.moves store events middle) (moved : middle.moves ⟨op, reply⟩ last) :
    Rests (events ++ [⟨op, reply⟩]) id before (last.keys.get? id) := by
  refine Rests.grown ?_ _
  cases op with
  | commit batch =>
    rcases moved with ⟨_, _, rfl⟩ | ⟨_, rfl⟩
    · rcases spares with ⟨view, weights, provider, exclude, fresh, same⟩ | other
      · simp only [Store.apply, same]
        exact rests_reactivation middle.keys (fresh.current followed) fresh.readIn rests
      · simp only [Store.apply]
        rw [Store.get_foldl_other _ _ other]
        exact rests
    · exact rests
  | clearRefresh ids => exact spares.elim
  | listKeys => exact moved.1 ▸ rests
  | findKey id => exact moved.1 ▸ rests
  | reload id => exact moved.1 ▸ rests
  | readPool provider exclude => exact moved.1 ▸ rests
  | _ => exact (show last = middle from moved) ▸ rests

/-- Over an exchange whose questions spare the key, its row rests. -/
theorem rests_of_spares (store last : Store) (events : Exchange R)
    (spares : ∀ front event back, events = front ++ event :: back → Spares id front event.op)
    (followed : Follows Store.moves store events last) :
    Rests events id (store.keys.get? id) (last.keys.get? id) := by
  induction events using List.reverseRecOn generalizing last with
  | nil =>
    cases followed
    exact .inl rfl
  | append_singleton front event ih =>
    obtain ⟨middle, followed, one⟩ := (follows_append front _).mp followed
    obtain _ | ⟨moved, ended⟩ := one
    cases ended
    have rests := ih middle (fun early event back split => spares early event (back ++ [_])
      (by rw [split, List.append_assoc, List.cons_append])) followed
    exact rests_step rests (spares front event [] rfl) followed moved

/-- The client object that a commit writes. -/
def accountOf : Event (Op R) (Reply R) → Option ClientObject
  | ⟨.commit batch, true⟩ => batch.client
  | _ => none

theorem clients_moved {event : Event (Op R) (Reply R)} (moved : middle.moves event last) :
    last.clients = Store.flushClient middle.clients (accountOf event) := by
  obtain ⟨op, reply⟩ := event
  cases op with
  | commit batch =>
    rcases moved with ⟨rfl, _, rfl⟩ | ⟨rfl, rfl⟩
    · rfl
    · rfl
  | clearRefresh ids =>
    rcases moved with ⟨_, rfl⟩ | ⟨_, rfl⟩
    · rfl
    · rfl
  | listKeys => exact congrArg Store.clients moved.1
  | findKey id => exact congrArg Store.clients moved.1
  | reload id => exact congrArg Store.clients moved.1
  | readPool provider exclude => exact congrArg Store.clients moved.1
  | _ => exact congrArg Store.clients moved

/-- The rows of clients after an exchange are as its commits wrote them. -/
theorem clients_follow (events : Exchange R) (followed : Follows Store.moves store events last) :
    last.clients = (events.filterMap accountOf).foldl
      (fun clients client => Store.flushClient clients (some client)) store.clients := by
  induction events generalizing store with
  | nil =>
    cases followed
    rfl
  | cons event events ih =>
    obtain _ | ⟨moved, followed⟩ := followed
    rw [ih followed, clients_moved moved, List.filterMap_cons]
    cases accountOf event <;> rfl

theorem mem_accounts {client : ClientObject} (member : client ∈ events.filterMap accountOf) :
    client ∈ accounts events := by
  obtain ⟨⟨op, reply⟩, listed, wrote⟩ := List.mem_filterMap.mp member
  refine List.mem_filterMap.mpr ⟨⟨op, reply⟩, listed, ?_⟩
  cases op with
  | commit batch =>
    cases reply with
    | true => exact wrote
    | false => cases wrote
  | _ => cases wrote

/-- The commits of an exchange leave the rows of other clients alone. -/
theorem clients_other (events : Exchange R) (other : ∀ client ∈ accounts events, id ≠ client.id)
    (followed : Follows Store.moves store events last) :
    last.clients.get? id = store.clients.get? id := by
  have fold (objects : List ClientObject) (clients : Table ClientColumns)
      (other : ∀ client ∈ objects, id ≠ client.id) :
      (objects.foldl (fun clients client => Store.flushClient clients (some client))
        clients).get? id = clients.get? id := by
    induction objects generalizing clients with
    | nil => rfl
    | cons client objects ih =>
      rw [List.foldl_cons, ih _ fun next member => other next (List.mem_cons_of_mem _ member)]
      exact Table.get_modify_other (other client List.mem_cons_self)
  rw [clients_follow events followed]
  exact fold _ _ fun client member => other client (mem_accounts member)

section

variable {left : Gateway R (ForwardResult R)}

/-- The master key that a forward decrypts with. -/
abbrev master (setup : Setup R) : Bytes := setup.masterKey.getD []

/-- Each question of a run of a forward was due. -/
theorem due_at {event : Event (Op R) (Reply R)}
    (reached : Reaches (forward setup call) (front ++ event :: back) left) :
    Due setup call (master setup) front event.op := by
  have known (other : Bytes) (given : setup.masterKey = some other) : other = master setup := by
    rw [master, given]
    rfl
  exact wp_demands reached (follows_checking _ front []) (wp_forward setup call known)

theorem replies_single (event : Event (Op R) (Reply R)) :
    replies [event] = [] ∨ ∃ id sent reply, event = ⟨.request id sent, reply⟩ := by
  obtain ⟨op, reply⟩ := event
  cases op with
  | request id sent => exact .inr ⟨id, sent, reply, rfl⟩
  | _ => exact .inl rfl

/-- All replies but the last were held against their keys. -/
theorem held_before (events : Exchange R)
    (reached : Reaches (forward setup call) (events ++ back) left) :
    ∀ entry ∈ (replies events).dropLast, HeldAgainst entry.2 := by
  induction events using List.reverseRecOn generalizing back with
  | nil => exact fun entry => nofun
  | append_singleton front event ih =>
    rw [List.append_assoc] at reached
    rw [replies_append]
    rcases replies_single event with none | ⟨id, sent, reply, rfl⟩
    · rw [none, List.append_nil]
      exact ih reached
    · have whole : replies front ++ replies [⟨.request id sent, reply⟩] =
          replies front ++ [(id, reply)] := rfl
      rw [whole, List.dropLast_concat]
      cases due_at reached with
      | idle idle => exact idle.elim
      | answered _ about => exact about.elim
      | request _ going _ => exact going.refused

/-- The one response of the key was about the request. -/
def PassedOnly (events : Exchange R) (id : Nat) : Prop :=
  ∃ resp, responses id events = [resp] ∧ classifyUpstreamOutcome resp = .passthrough

@[simp] theorem responses_append (front back : Exchange R) :
    responses id (front ++ back) = responses id front ++ responses id back := by
  rw [responses, replies_append, List.filterMap_append, responses, responses]

theorem mem_responses {resp : UpstreamResponse} :
    resp ∈ responses id events ↔ (id, .response resp) ∈ replies events := by
  simp only [responses, List.mem_filterMap]
  constructor
  · rintro ⟨⟨other, reply⟩, member, read⟩
    cases reply with
    | response found =>
      obtain ⟨rfl, rfl⟩ : other = id ∧ found = resp := by simpa using read
      exact member
    | _ => cases read
  · exact fun member => ⟨_, member, if_pos rfl⟩

/-- A key that only passed a response on is never answered otherwise. -/
theorem PassedOnly.unanswerable (passed : PassedOnly (front ++ back) id)
    (reached : Reaches (forward setup call) (front ++ back) left) : ¬ Answerable front id := by
  rintro ⟨reply, member, against⟩
  obtain ⟨resp, only, through⟩ := passed
  have own : (id, UpstreamReply.response resp) ∈ replies (front ++ back) :=
    mem_responses.mp (only ▸ List.mem_singleton_self resp)
  have whole : (id, reply) ∈ replies (front ++ back) := by
    rw [replies_append]
    exact List.mem_append_left _ member
  have whole_run : Reaches (forward setup call) ((front ++ back) ++ []) left := by
    rwa [List.append_nil]
  have held := held_before (front ++ back) whole_run
  by_cases final : (id, reply) = (replies (front ++ back)).getLast (List.ne_nil_of_mem whole)
  · have other : (id, UpstreamReply.response resp) ≠
        (replies (front ++ back)).getLast (List.ne_nil_of_mem own) := by
      intro same
      obtain rfl : reply = .response resp := congrArg Prod.snd (final.trans same.symm)
      exact against through
    have held := held _ (List.mem_dropLast_of_mem_of_ne_getLast own other)
    simp [HeldAgainst, through] at held
  · have held := held _ (List.mem_dropLast_of_mem_of_ne_getLast whole final)
    cases reply with
    | response found =>
      have same := mem_responses.mpr whole
      rw [only, List.mem_singleton] at same
      rw [same] at against
      exact against through
    | _ => exact held.elim

theorem mem_undecrypted {batch : Commit} {written : Bool} (site : batch.site = .decryptFailed)
    (listed : key ∈ batch.keys)
    (member : (⟨.commit batch, written⟩ : Event (Op R) (Reply R)) ∈ events) :
    key.id ∈ undecrypted events := by
  refine List.mem_flatMap.mpr ⟨_, member, ?_⟩
  simp only [site, ↓reduceIte]
  exact List.mem_map_of_mem listed

/-- A key that passed a response on is not found undecryptable. -/
theorem PassedOnly.decrypts {written : Bool} (going : Going front)
    (passed : PassedOnly
      (front ++ ⟨.commit { site := .decryptFailed, keys := [key] }, written⟩ :: back) id)
    (reached : Reaches (forward setup call)
      (front ++ ⟨.commit { site := .decryptFailed, keys := [key] }, written⟩ :: back) left) :
    id ≠ key.id := by
  rintro rfl
  obtain ⟨resp, only, through⟩ := passed
  have own : resp ∈ responses key.id (front ++
      ⟨.commit { site := .decryptFailed, keys := [key] }, written⟩ :: back) :=
    only ▸ List.mem_singleton_self resp
  rw [mem_responses, replies_append, replies_commit, List.mem_append] at own
  rcases own with early | late
  · have held := going.refused _ early
    simp [HeldAgainst, through] at held
  · obtain ⟨⟨op, reply⟩, member, read⟩ := List.mem_filterMap.mp late
    obtain ⟨between, after, rfl⟩ := List.append_of_mem member
    rw [← List.cons_append, ← List.append_assoc] at reached
    have due := due_at reached
    cases op with
    | request other sent =>
      obtain ⟨rfl, rfl⟩ : other = key.id ∧ reply = .response resp := by simpa using read
      cases due with
      | idle idle => exact idle.elim
      | answered _ about => exact about.elim
      | request _ _ sealed =>
        exact sealed (mem_undecrypted rfl (List.mem_singleton_self key)
          (List.mem_append_right front List.mem_cons_self))
    | _ => cases read

/-- A question spares a key that has not been answered and that it does not find
undecryptable. -/
theorem spares_at {event : Event (Op R) (Reply R)} (unanswerable : ¬ Answerable front id)
    (decrypts : ∀ key error, event.op = .commit { site := .decryptFailed, keys := [key] } →
      Going front →
      setup.foreign.decryptApiKey (master setup) key.current.apiKeyCiphertext = .error error →
      id ≠ key.id)
    (due : Due setup call (master setup) front event.op) : Spares id front event.op := by
  obtain ⟨op, reply⟩ := event
  cases due with
  | idle idle => cases op <;> trivial
  | decay weights provider exclude fresh => trivial
  | reactivation weights provider exclude fresh =>
    exact .inl ⟨_, weights, provider, exclude, fresh, rfl⟩
  | request sent going sealed => trivial
  | @undecryptable key error going failed =>
    refine .inr fun other member => ?_
    rw [List.mem_singleton.mp member]
    exact decrypts key error rfl going failed
  | @answered _ answeredId answerable about =>
    have other : id ≠ answeredId := by
      rintro rfl
      exact unanswerable answerable
    cases op with
    | commit batch => exact .inr fun key member => about.2.2 key member ▸ other
    | clearRefresh ids => exact about
    | _ => trivial
  | @accounting key resp usedAt mode unaccounted final success =>
    refine .inr fun other member => ?_
    rw [List.mem_singleton.mp member]
    rintro rfl
    refine unanswerable ⟨.response resp, List.mem_of_getLast? final, fun through => ?_⟩
    have ok : classifyUpstreamOutcome resp = .ok := (classify_ok_iff resp).mpr success
    rw [PassesThrough, ok] at through
    cases through

/-- The memory of failures that a selection keeps for a key is what it decayed to. -/
theorem decayed_of_mem {weights : KeyPool.Weights R} {provider : String} {exclude : List Nat}
    {value : Option (R × R)}
    (member : (id, value) ∈ (KeyPool.scanKeys view weights provider exclude).failures) :
    value = (KeyPool.failureCount (view.failures id) (view.monotonic id) weights.failHalf).2 := by
  have considered (scan : KeyPool.Scan R) (key : KeyObject)
      (member : (id, value) ∈ (KeyPool.consider view weights scan key).failures) :
      (id, value) ∈ scan.failures ∨
        value = (KeyPool.failureCount (view.failures id) (view.monotonic id) weights.failHalf).2 := by
    simp only [KeyPool.consider] at member
    split at member
    · exact .inl member
    · split at member
      · exact .inl member
      · split at member <;>
        · rcases List.mem_append.mp member with earlier | added
          · exact .inl earlier
          · cases List.mem_singleton.mp added
            exact .inr rfl
  have scanned (scan : KeyPool.Scan R) (key : KeyObject)
      (member : (id, value) ∈ (KeyPool.scanKey view weights exclude scan key).failures) :
      (id, value) ∈ scan.failures ∨
        value = (KeyPool.failureCount (view.failures id) (view.monotonic id) weights.failHalf).2 := by
    simp only [KeyPool.scanKey] at member
    split at member
    · exact .inl member
    · split at member
      · exact .inl member
      · split at member
        · split at member
          · exact .inl member
          · have found := considered _ _ member
            exact found
        · exact considered scan key member
  have fold (keys : List KeyObject) (scan : KeyPool.Scan R)
      (member : (id, value) ∈ (keys.foldl (KeyPool.scanKey view weights exclude) scan).failures) :
      (id, value) ∈ scan.failures ∨
        value = (KeyPool.failureCount (view.failures id) (view.monotonic id) weights.failHalf).2 := by
    induction keys generalizing scan with
    | nil => exact .inl member
    | cons key keys ih =>
      rcases ih _ member with earlier | decayed
      · exact scanned scan key earlier
      · exact .inr decayed
  exact (fold _ _ member).resolve_left List.not_mem_nil

/-- A question records no failure of a key that has not been answered. -/
theorem unrecorded_at {op : Op R} (unanswerable : ¬ Answerable front id)
    (due : Due setup call (master setup) front op) :
    (∀ updates, op = .keepFailures updates → ∀ value, (id, value) ∈ updates →
      ∃ view halfLife, ReadIn front view ∧
        value = (KeyPool.failureCount (view.failures id) (view.monotonic id) halfLife).2) ∧
      ∀ count firstAt, op ≠ .keepWindow id count firstAt := by
  cases due with
  | @decay view weights provider exclude fresh =>
    refine ⟨?_, nofun⟩
    rintro _ ⟨⟩ value member
    exact ⟨view, weights.failHalf, fresh.readIn, decayed_of_mem member⟩
  | @answered _ answeredId answerable about =>
    have other : id ≠ answeredId := by
      rintro rfl
      exact unanswerable answerable
    constructor
    · rintro _ rfl value member
      exact absurd (about _ member) other
    · rintro count firstAt rfl
      exact other about
  | idle idle =>
    constructor
    · rintro _ rfl
      exact idle.elim
    · rintro count firstAt rfl
      exact idle
  | _ => exact ⟨nofun, nofun⟩

/-- A forward without a master key asks nothing. -/
theorem master_given {event : Event (Op R) (Reply R)}
    (reached : Reaches (forward setup call) (front ++ event :: back) left) :
    setup.masterKey = some (master setup) := by
  cases given : setup.masterKey with
  | some masterKey => rw [master, given, Option.getD_some]
  | none =>
    simp only [forward, given, reject] at reached
    cases front <;> cases reached

end

/-- What a run of a forward leaves alone. -/
structure Isolated (setup : Setup R) (call : Call) (events : Exchange R) (store last : Store) :
    Prop where
  clients : ∀ id, id ≠ call.client.id → last.clients.get? id = store.clients.get? id
  keys : ∀ id, id ∉ sends events → ¬ Undecryptable setup events id →
    Rests events id (store.keys.get? id) (last.keys.get? id)
  passed : ∀ id, PassedOnly events id →
    Rests events id (store.keys.get? id) (last.keys.get? id) ∧ Unrecorded events id

/-- The client objects of the commits are of the caller. -/
theorem accounts_own {left : Gateway R (ForwardResult R)} {client : ClientObject}
    (reached : Reaches (forward setup call) events left) (member : client ∈ accounts events) :
    client.id = call.client.id := by
  obtain ⟨⟨op, reply⟩, listed, read⟩ := List.mem_filterMap.mp member
  obtain ⟨front, back, rfl⟩ := List.append_of_mem listed
  have due := due_at reached
  cases due with
  | idle idle => cases op <;> first | cases read | exact idle.elim
  | answered _ about =>
    cases op with
    | commit batch =>
      have unaccounted : batch.client = none := about.2.1
      have accounted : batch.client = some client := read
      rw [unaccounted] at accounted
      cases accounted
    | _ => cases read
  | accounting usedAt _ _ _ _ =>
    cases read
    rfl
  | _ => cases read

/-- One key's trouble never touches another key, nor another client: however the upstream and
the database answer, up to every point of a run of a forward. -/
theorem forward_isolated (setup : Setup R) (call : Call) (store last : Store) (events : Exchange R)
    (left : Gateway R (ForwardResult R)) (reached : Reaches (forward setup call) events left)
    (followed : Follows Store.moves store events last) : Isolated setup call events store last := by
  constructor
  case clients =>
    intro id other
    refine clients_other events (fun client member same => other ?_) followed
    rw [same, accounts_own reached member]
  case keys =>
    intro id unsent decrypts
    refine rests_of_spares store last events (fun front event back split => ?_) followed
    subst split
    refine spares_at ?_ ?_ (due_at reached)
    · rintro ⟨reply, member, _⟩
      refine unsent ?_
      rw [sends_append, sends_eq_replies front]
      exact List.mem_append_left _ (List.mem_map_of_mem (f := Prod.fst) member)
    · rintro key error asked _ failed rfl
      obtain ⟨op, reply⟩ := event
      cases asked
      exact decrypts ⟨master setup, key, reply, error, master_given reached,
        List.mem_append_right _ List.mem_cons_self, rfl, failed⟩
  case passed =>
    intro id passed
    constructor
    · refine rests_of_spares store last events (fun front event back split => ?_) followed
      subst split
      refine spares_at (passed.unanswerable reached) ?_ (due_at reached)
      intro key error asked going _
      obtain ⟨op, reply⟩ := event
      cases asked
      exact passed.decrypts going reached
    · constructor
      · intro updates reply member value listed
        obtain ⟨front, back, rfl⟩ := List.append_of_mem member
        obtain ⟨view, halfLife, read, decayed⟩ := (unrecorded_at (passed.unanswerable reached)
          (due_at reached)).1 updates rfl value listed
        exact ⟨view, halfLife, read.grown _, decayed⟩
      · intro count firstAt reply member
        obtain ⟨front, back, rfl⟩ := List.append_of_mem member
        exact (unrecorded_at (passed.unanswerable reached) (due_at reached)).2 count firstAt rfl

/-- An upstream that finds nothing. -/
def missingUpstream (store : Store) : (op : Op ℚ) → Reply ℚ op × Store
  | .request _ _ => (.response { statusCode := 404, headers := [], content := [] }, store)
  | op => store.answer 0 op

theorem missing_honest (store : Store) (op : Op ℚ) :
    store.moves ⟨op, (missingUpstream store op).1⟩ (missingUpstream store op).2 := by
  cases op with
  | request id sent => exact rfl
  | _ => exact Store.answer_honest 0 store _

/-- Of two keys one passes a response on, and neither row is touched. -/
theorem missing_run_isolated : ∃ events last, sends events = [1] ∧
    (responses 1 events).map classifyUpstreamOutcome = [.passthrough] ∧
      Isolated (plainSetup {}) plainCall events twoKeys last := by
  have ran := execute_ran missingUpstream (forward (plainSetup {}) plainCall) twoKeys
  have followed := execute_follows missing_honest (forward (plainSetup {}) plainCall) twoKeys
  have shown : sends ((forward (plainSetup {}) plainCall).execute missingUpstream twoKeys).1 = [1] ∧
      (responses 1 ((forward (plainSetup {}) plainCall).execute missingUpstream twoKeys).1).map
        classifyUpstreamOutcome = [.passthrough] := by decide +kernel
  exact ⟨_, _, shown.1, shown.2, forward_isolated _ _ _ _ _ _ ran followed⟩

end FcamGateway.ForwardEffects
