import FcamGateway.CreditEffects
import FcamGateway.ForwardExchange

/-! What the gateway's functions write in the rows of keys, and on what evidence. No commit
makes a key active or touches its ciphertext, a commit that condemns a key follows a
verdict on the ciphertext that was read, and a key is used only when it was read active. -/
namespace FcamGateway.KeyVerdicts
open Prog Credits Upstream Forwarder

set_option linter.unusedSectionVars false

variable {R : Type} [Field R] [LinearOrder R] [ScoreMath R]

/-- The flush of the object does not make the key active and leaves its ciphertext. -/
structure Kept (key : KeyObject) : Prop where
  dormant : key.current.isActive = true → key.loaded.isActive = true
  sealed : key.current.apiKeyCiphertext = key.loaded.apiKeyCiphertext

/-- The flush of the object says that the key is invalid, does not decrypt or is not active. -/
def Condemns (key : KeyObject) : Prop :=
  (key.current.isActive = false ∧ key.loaded.isActive = true) ∨
    (key.current.status ∈ ["invalid", "decrypt_failed"] ∧ key.current.status ≠ key.loaded.status)

/-- The row of the key that a reply holds. -/
def loadedRow (id : Nat) : Event (Op R) (Reply R) → Option KeyColumns
  | ⟨.readPool _ _, some view⟩ => view.keys.get? id
  | ⟨.findKey other, some found⟩ => if other = id then found else none
  | ⟨.listKeys, some keys⟩ => keys.get? id
  | ⟨.reload other, reply⟩ => if other = id then reply else none
  | _ => none

/-- The questions that a forward or an endpoint reads key rows with. -/
def Reads : Op R → Prop
  | .readPool _ _ => True
  | .findKey _ => True
  | .listKeys => True
  | _ => False

/-- The question that a refresh round reads ciphertexts with. -/
def Lists : Op R → Prop
  | .listKeys => True
  | _ => False

/-- The request carries the secret. -/
def Carries (secret : String) (sent : UpstreamRequest) : Prop :=
  ("authorization", "Bearer " ++ secret) ∈ sent.headers ∨ ("x-api-key", secret) ∈ sent.headers

def Unauthorized : ProbeReply → Prop
  | .response statusCode _ _ => statusCode = 401 ∨ statusCode = 403
  | _ => False

/-- The upstream refuses the secret of the key. -/
def Refuses (id : Nat) (secret : String) : Event (Op R) (Reply R) → Prop
  | ⟨.request keyId sent, .response resp⟩ =>
    keyId = id ∧ Carries secret sent ∧ classifyUpstreamOutcome resp = .invalidKey
  | ⟨.probe keyId sent, reply⟩ => keyId = id ∧ sent = secret ∧ Unauthorized reply
  | ⟨.probeAll _ secrets, replies⟩ => (id, secret) ∈ secrets ∧ Unauthorized (replies id).2
  | _ => False

/-- The verdict that a status names, for a ciphertext and what happened since it was read. -/
def Verdict (foreign : Foreign) (masterKey : Bytes) (late : Exchange R) (id : Nat)
    (ciphertext : Bytes) (status : String) : Prop :=
  (status = "decrypt_failed" ∧ ∃ error, foreign.decryptApiKey masterKey ciphertext = .error error) ∨
    (status = "invalid" ∧ ∃ secret, foreign.decryptApiKey masterKey ciphertext = .ok secret ∧
      ∃ event ∈ late, Refuses id secret event)

/-- The event with all that came after it, among which rows were not read again. -/
structure Since (reads : Op R → Prop) (events : Exchange R) (load : Event (Op R) (Reply R))
    (late : Exchange R) : Prop where
  split : ∃ early, events = early ++ load :: late
  quiet : ∀ event ∈ late, ¬ reads event.op

/-- The verdict on a key that the status names, obtained with the ciphertext. -/
def Evident (foreign : Foreign) (masterKey : Bytes) (reads : Op R → Prop) (events : Exchange R)
    (id : Nat) (status : String) (ciphertext : Bytes) : Prop :=
  ∃ load late row, Since reads events load late ∧ loadedRow id load = some row ∧
    row.apiKeyCiphertext = ciphertext ∧ Verdict foreign masterKey late id ciphertext status

/-- The last reading found the key as it has to be. -/
def Offered (reads : Op R → Prop) (offer : KeyColumns → Prop) (events : Exchange R) (id : Nat) :
    Prop :=
  ∃ load late row, Since reads events load late ∧ reads load.op ∧ loadedRow id load = some row ∧
    offer row

/-- What may be asked after an exchange. -/
def Demand (foreign : Foreign) (masterKey : Bytes) (reads : Op R → Prop)
    (offer : KeyColumns → Prop) (events : Exchange R) : Op R → Prop
  | .commit batch => ∀ key ∈ batch.keys, Kept key ∧ (Condemns key →
      ∃ ciphertext, Evident foreign masterKey reads events key.id key.current.status ciphertext)
  | .allow id _ => Offered reads offer events id
  | .acquire id _ => Offered reads offer events id
  | .request id _ => Offered reads offer events id
  | .probe id _ => Offered reads offer events id
  | _ => True

/-- More events, among which rows were not read again. -/
def Later (reads : Op R → Prop) (before after : Exchange R) : Prop :=
  ∃ late, after = before ++ late ∧ ∀ event ∈ late, ¬ reads event.op

variable {foreign : Foreign} {masterKey : Bytes} {reads : Op R → Prop}
  {offer : KeyColumns → Prop} {before middle after events history last : Exchange R}
  {load : Event (Op R) (Reply R)} {late : Exchange R} {id : Nat} {status : String}
  {ciphertext : Bytes} {key : KeyObject}

theorem Later.refl (events : Exchange R) : Later reads events events :=
  ⟨[], (List.append_nil _).symm, fun _ => nofun⟩

theorem Later.trans (one : Later reads before middle) (two : Later reads middle after) :
    Later reads before after := by
  obtain ⟨early, rfl, quiet⟩ := one
  obtain ⟨late, rfl, still⟩ := two
  exact ⟨early ++ late, List.append_assoc _ _ _, List.forall_mem_append.mpr ⟨quiet, still⟩⟩

theorem Later.asked {op : Op R} (reply : Reply R op) (quiet : ¬ reads op) :
    Later reads events (events ++ [⟨op, reply⟩]) := by
  refine ⟨_, rfl, fun event member => ?_⟩
  rw [List.mem_singleton.mp member]
  exact quiet

theorem Later.then (later : Later reads before after) (op : Op R) (reply : Reply R op)
    (quiet : ¬ reads op) : Later reads before (after ++ [⟨op, reply⟩]) :=
  later.trans (.asked reply quiet)

theorem Since.later (since : Since reads before load late) (later : Later reads before after) :
    ∃ more, (∀ event ∈ late, event ∈ more) ∧ Since reads after load more := by
  obtain ⟨early, rfl⟩ := since.split
  obtain ⟨more, rfl, quiet⟩ := later
  refine ⟨late ++ more, fun _ => List.mem_append_left _, ⟨early, ?_⟩,
    List.forall_mem_append.mpr ⟨since.quiet, quiet⟩⟩
  rw [List.append_assoc, List.cons_append]

theorem Verdict.more {more : Exchange R} (verdict : Verdict foreign masterKey late id ciphertext status)
    (within : ∀ event ∈ late, event ∈ more) :
    Verdict foreign masterKey more id ciphertext status := by
  rcases verdict with failed | ⟨same, secret, opened, event, member, refuses⟩
  · exact .inl failed
  · exact .inr ⟨same, secret, opened, event, within event member, refuses⟩

theorem Evident.later (evident : Evident foreign masterKey reads before id status ciphertext)
    (later : Later reads before after) :
    Evident foreign masterKey reads after id status ciphertext := by
  obtain ⟨load, late, row, since, loaded, same, verdict⟩ := evident
  obtain ⟨more, within, since⟩ := since.later later
  exact ⟨load, more, row, since, loaded, same, verdict.more within⟩

theorem Offered.later (offered : Offered reads offer before id) (later : Later reads before after) :
    Offered reads offer after id := by
  obtain ⟨load, late, row, since, read, loaded, fit⟩ := offered
  obtain ⟨more, _, since⟩ := since.later later
  exact ⟨load, more, row, since, read, loaded, fit⟩

/-- A row object in the hands of a function: it is as it was loaded, its ciphertext is the one
that was read, and it was found as it has to be. -/
structure Hand (reads : Op R → Prop) (offer : KeyColumns → Prop) (events : Exchange R)
    (key : KeyObject) : Prop where
  clean : key.current = key.loaded
  read : ∃ load late row, Since reads events load late ∧ loadedRow key.id load = some row ∧
    row.apiKeyCiphertext = key.current.apiKeyCiphertext
  offered : Offered reads offer events key.id

theorem Hand.later (hand : Hand reads offer before key) (later : Later reads before after) :
    Hand reads offer after key := by
  obtain ⟨load, late, row, since, loaded, same⟩ := hand.read
  obtain ⟨more, _, since⟩ := since.later later
  exact ⟨hand.clean, ⟨load, more, row, since, loaded, same⟩, hand.offered.later later⟩

/-- The row object of a key that does not decrypt. -/
theorem Hand.undecryptable {error : String} (hand : Hand reads offer events key)
    (failed : foreign.decryptApiKey masterKey key.current.apiKeyCiphertext = .error error) :
    Evident foreign masterKey reads events key.id "decrypt_failed" key.current.apiKeyCiphertext := by
  obtain ⟨load, late, row, since, loaded, same⟩ := hand.read
  exact ⟨load, late, row, since, loaded, same, .inl ⟨rfl, error, failed⟩⟩

/-- The row object of a key whose secret the upstream refuses. -/
theorem Hand.refused {secret : String} (hand : Hand reads offer events key) (op : Op R)
    (reply : Reply R op) (quiet : ¬ reads op)
    (opened : foreign.decryptApiKey masterKey key.current.apiKeyCiphertext = .ok secret)
    (refuses : Refuses key.id secret ⟨op, reply⟩) :
    Evident foreign masterKey reads (events ++ [⟨op, reply⟩]) key.id "invalid"
      key.current.apiKeyCiphertext := by
  obtain ⟨load, late, row, ⟨⟨early, rfl⟩, still⟩, loaded, same⟩ := hand.read
  refine ⟨load, late ++ [⟨op, reply⟩], row, ⟨⟨early, ?_⟩, ?_⟩, loaded, same, .inr ⟨rfl, secret, opened,
    _, List.mem_append_right _ (List.mem_singleton_self _), refuses⟩⟩
  · rw [List.append_assoc, List.cons_append]
  · refine List.forall_mem_append.mpr ⟨still, fun event member => ?_⟩
    rw [List.mem_singleton.mp member]
    exact quiet

/-- The row object that a lookup finds is in hand. -/
theorem hand_found {row : KeyColumns} (id : Nat) (fit : offer row) :
    Hand Reads offer (history ++ [(⟨.findKey id, some (some row)⟩ : Event (Op R) (Reply R))])
      (KeyObject.fresh id row) := by
  have since : Since Reads (history ++ [(⟨.findKey id, some (some row)⟩ : Event (Op R) (Reply R))])
      ⟨.findKey id, some (some row)⟩ [] := ⟨⟨history, rfl⟩, fun _ => nofun⟩
  have loaded : loadedRow id (⟨.findKey id, some (some row)⟩ : Event (Op R) (Reply R)) = some row :=
    if_pos rfl
  exact ⟨rfl, ⟨_, [], row, since, loaded, rfl⟩, ⟨_, [], row, since, trivial, loaded, fit⟩⟩

/-- The monitor that checks each question against the exchange before it. -/
abbrev watching (foreign : Foreign) (masterKey : Bytes) (reads : Op R → Prop)
    (offer : KeyColumns → Prop) : Monitor (Exchange R) (Op R) (Reply R) :=
  .checking (Demand foreign masterKey reads offer)

theorem wp_put {post : Except Exn Value → Exchange R → Prop} (op : Op R)
    (rest : Reply R op → Gateway R Value) (met : Demand foreign masterKey reads offer history op)
    (next : ∀ reply, (rest reply).wp (watching foreign masterKey reads offer) post
      (history ++ [⟨op, reply⟩])) :
    ((query op).bind rest).wp (watching foreign masterKey reads offer) post history :=
  (wp_check op _).mpr ⟨met, next⟩

/-- The row object that a function returns is in its hands. -/
def Returned (offer : KeyColumns → Prop) (history : Exchange R) (id : Nat) :
    Except Exn KeyObject → Exchange R → Prop
  | .ok next, last => Later Reads history last ∧ next.id = id ∧ Hand Reads offer last next
  | .error _, last => Later Reads history last

/-- The function does what is allowed and returns the object of the key. -/
abbrev Handles (foreign : Foreign) (masterKey : Bytes) (offer : KeyColumns → Prop)
    (history : Exchange R) (id : Nat) (program : Gateway R KeyObject) : Prop :=
  program.wp (watching foreign masterKey Reads offer) (Returned offer history id) history

/-- The function does what is allowed and reads no rows. -/
abbrev Settles (foreign : Foreign) (masterKey : Bytes) (offer : KeyColumns → Prop)
    (history : Exchange R) (program : Gateway R Value) : Prop :=
  program.wp (watching foreign masterKey Reads offer) (fun _ last => Later Reads history last)
    history

theorem Handles.mono {program : Gateway R KeyObject} (later : Later Reads before history)
    (handles : Handles foreign masterKey offer history id program) :
    program.wp (watching foreign masterKey Reads offer) (Returned offer before id) history := by
  refine wp_mono ?_ handles
  rintro (error | next) last
  · exact fun since => later.trans since
  · rintro ⟨since, same, hand⟩
    exact ⟨later.trans since, same, hand⟩

theorem Settles.mono {program : Gateway R Value} (later : Later Reads before history)
    (settles : Settles foreign masterKey offer history program) :
    program.wp (watching foreign masterKey Reads offer) (fun _ last => Later Reads before last)
      history :=
  wp_mono (fun _ _ since => later.trans since) settles

/-- The row object that a rollback reads again is in hand. -/
theorem hand_reloaded {row : KeyColumns} (offered : Offered Reads offer history id) :
    Hand Reads offer (history ++ [(⟨.reload id, some row⟩ : Event (Op R) (Reply R))])
      (KeyObject.fresh id row) :=
  ⟨rfl, ⟨_, [], row, ⟨⟨history, rfl⟩, fun _ => nofun⟩, if_pos rfl, rfl⟩,
    offered.later ((Later.refl history).then (.reload id) (some row) False.elim)⟩

theorem wp_rollback (offered : Offered Reads offer history key.id) :
    Handles foreign masterKey offer history key.id (rollback (R := R) key) := by
  refine wp_put _ _ trivial fun reply => ?_
  have later : Later Reads history _ :=
    (Later.refl history).then (.reload key.id) reply False.elim
  cases reply with
  | none => exact later
  | some row => exact ⟨later, rfl, hand_reloaded offered⟩

/-- What an object may be assigned before it is committed. -/
structure Allowed (foreign : Foreign) (masterKey : Bytes) (reads : Op R → Prop)
    (events : Exchange R) (key : KeyObject) (columns : KeyColumns) : Prop where
  dormant : columns.isActive = true → key.current.isActive = true
  sealed : columns.apiKeyCiphertext = key.current.apiKeyCiphertext
  evident : Condemns { key with current := columns } →
    ∃ ciphertext, Evident foreign masterKey reads events key.id columns.status ciphertext

/-- An assignment that keeps the key as active as it is and gives it no condemning status. -/
theorem Allowed.mild {columns : KeyColumns} (clean : key.current = key.loaded)
    (active : columns.isActive = key.current.isActive)
    (sealed : columns.apiKeyCiphertext = key.current.apiKeyCiphertext)
    (status : columns.status = key.current.status ∨
      ∃ text, text ∉ ["invalid", "decrypt_failed"] ∧ columns.status = text) :
    Allowed foreign masterKey reads events key columns := by
  refine ⟨fun on => active ▸ on, sealed, ?_⟩
  rintro (⟨off, on⟩ | ⟨condemning, changed⟩)
  · have same : key.loaded.isActive = false := by rw [← clean, ← active]; exact off
    rw [on] at same
    cases same
  · rcases status with same | ⟨text, other, same⟩
    · refine absurd ?_ changed
      change columns.status = key.loaded.status
      rw [same, clean]
    · exact absurd (same ▸ condemning) other

theorem Allowed.later {columns : KeyColumns}
    (allowed : Allowed foreign masterKey reads before key columns)
    (later : Later reads before after) : Allowed foreign masterKey reads after key columns := by
  refine ⟨allowed.dormant, allowed.sealed, fun condemns => ?_⟩
  obtain ⟨ciphertext, evident⟩ := allowed.evident condemns
  exact ⟨ciphertext, evident.later later⟩

/-- The object with an allowed assignment may be committed. -/
theorem Allowed.meets {columns : KeyColumns} (clean : key.current = key.loaded)
    (allowed : Allowed foreign masterKey reads events key columns) :
    Kept { key with current := columns } ∧ (Condemns { key with current := columns } →
      ∃ ciphertext, Evident foreign masterKey reads events key.id columns.status ciphertext) := by
  refine ⟨⟨fun on => ?_, ?_⟩, allowed.evident⟩
  · rw [← clean]
    exact allowed.dormant on
  · rw [← clean]
    exact allowed.sealed

theorem Allowed.demand {columns : KeyColumns} {site : Site} {client : Option ClientObject}
    (clean : key.current = key.loaded)
    (allowed : Allowed foreign masterKey reads events key columns) :
    Demand foreign masterKey reads offer events
      (.commit { site, keys := [{ key with current := columns }], client }) := by
  intro object member
  rw [List.mem_singleton.mp member]
  exact allowed.meets clean

/-- The object is in hand once its changes are committed. -/
theorem Hand.saved {columns : KeyColumns} (hand : Hand Reads offer events key)
    (sealed : columns.apiKeyCiphertext = key.current.apiKeyCiphertext) :
    Hand Reads offer events (KeyObject.saved { key with current := columns }) := by
  obtain ⟨load, late, row, since, loaded, same⟩ := hand.read
  exact ⟨rfl, ⟨load, late, row, since, loaded, same.trans sealed.symm⟩, hand.offered⟩

theorem wp_commit {post : Except Exn Value → Exchange R → Prop} (site : Site)
    (client : Option ClientObject) (key : KeyObject) {columns : KeyColumns}
    (rest : Bool → Gateway R Value)
    (hand : Hand Reads offer history key)
    (allowed : Allowed foreign masterKey Reads history key columns)
    (written : ∀ last, Later Reads history last →
      Hand Reads offer last (KeyObject.saved { key with current := columns }) →
      (rest true).wp (watching foreign masterKey Reads offer) post last)
    (failed : ∀ last, Later Reads history last → Hand Reads offer last key →
      (rest false).wp (watching foreign masterKey Reads offer) post last) :
    ((query (.commit { site, keys := [{ key with current := columns }], client })).bind rest).wp
      (watching foreign masterKey Reads offer) post history := by
  refine wp_put _ _ (allowed.demand hand.clean) fun reply => ?_
  have later : Later Reads history (history ++
      [⟨.commit { site, keys := [{ key with current := columns }], client }, reply⟩]) :=
    .asked reply False.elim
  cases reply with
  | true => exact written _ later ((hand.later later).saved allowed.sealed)
  | false => exact failed _ later (hand.later later)

theorem wp_commitKey (site : Site) {columns : KeyColumns} (hand : Hand Reads offer history key)
    (allowed : Allowed foreign masterKey Reads history key columns) :
    Handles foreign masterKey offer history key.id
      (commitKey site { key with current := columns }) := by
  refine wp_commit site none key _ hand allowed ?_ ?_
  · exact fun last later hand => ⟨later, rfl, hand⟩
  · intro last later hand
    refine Handles.mono later ?_
    change Handles foreign masterKey offer last key.id (rollback _)
    refine wp_rollback ?_
    exact hand.offered

theorem wp_disableKeyDecryptFailed {error : String} (hand : Hand Reads offer history key)
    (failed : foreign.decryptApiKey masterKey key.current.apiKeyCiphertext = .error error) :
    Handles foreign masterKey offer history key.id (disableKeyDecryptFailed (R := R) key) := by
  refine wp_commitKey .decryptFailed hand ⟨nofun, rfl, fun _ => ⟨_, hand.undecryptable failed⟩⟩

theorem wp_disableKey (hand : Hand Reads offer history key)
    (refused : Evident foreign masterKey Reads history key.id "invalid" ciphertext) :
    Handles foreign masterKey offer history key.id (disableKey (R := R) key) :=
  wp_commitKey .invalid hand ⟨nofun, rfl, fun _ => ⟨_, refused⟩⟩

theorem returned_same (hand : Hand Reads offer history key) :
    Returned offer history key.id (.ok key) history :=
  ⟨Later.refl history, rfl, hand⟩

theorem wp_markActive (hand : Hand Reads offer history key) :
    Handles foreign masterKey offer history key.id (markActive (R := R) key) := by
  unfold markActive
  split
  · exact returned_same hand
  · exact wp_commitKey .active hand (.mild hand.clean rfl rfl (.inr ⟨"active", by decide, rfl⟩))

theorem wp_markCooling (seconds : Int) (hand : Hand Reads offer history key) :
    Handles foreign masterKey offer history key.id (markCooling (R := R) key seconds) := by
  unfold markCooling
  split
  · exact returned_same hand
  · refine wp_put _ _ trivial fun now => ?_
    have later : Later Reads history (history ++ [⟨.now, now⟩]) := .asked now False.elim
    have hand := hand.later later
    dsimp only
    split
    · exact (wp_rollback hand.offered).mono later
    · refine wp_commit _ none key _ hand (.mild hand.clean rfl rfl (.inr ⟨"cooling", by decide, rfl⟩)) ?_ ?_
      · intro last since hand
        refine wp_put _ _ trivial fun reply => ?_
        have more : Later Reads last (last ++ [⟨.setCooldown key.id seconds, reply⟩]) :=
          .asked reply False.elim
        exact ⟨later.trans (since.trans more), rfl, hand.later more⟩
      · intro last since hand
        refine Handles.mono (later.trans since) ?_
        change Handles foreign masterKey offer last key.id (rollback _)
        refine wp_rollback ?_
        exact hand.offered

theorem wp_poolRecordFailure (keyId : Nat) (reason : String) (statusCode : Option Int) :
    Settles foreign masterKey offer history (KeyPool.recordFailure (R := R) keyId reason statusCode) := by
  unfold KeyPool.recordFailure
  split
  · refine wp_put _ _ trivial fun now => wp_put _ _ trivial fun entry => wp_put _ _ trivial fun kept => ?_
    exact ((Later.asked now False.elim).trans (.asked entry False.elim)).trans (.asked kept False.elim)
  · exact Later.refl history

theorem wp_recordFailure (setup : Setup R) (reason : String) (statusCode : Option Int)
    (hand : Hand Reads offer history key) :
    Handles foreign masterKey offer history key.id (recordFailure setup key reason statusCode) := by
  unfold recordFailure
  split
  · exact returned_same hand
  · refine (wp_bind _).mpr (wp_mono ?_ (wp_poolRecordFailure key.id reason statusCode))
    rintro (error | _) middle later
    · exact later
    refine wp_put _ _ trivial fun now => wp_put _ _ trivial fun entry => wp_put _ _ trivial fun kept => ?_
    have later := later.trans (((Later.asked now False.elim).trans (.asked entry False.elim)).trans
      (.asked kept False.elim))
    have hand := hand.later later
    split
    · exact ⟨later, rfl, hand⟩
    · split
      · exact (wp_rollback hand.offered).mono later
      · refine Handles.mono later ?_
        exact wp_commitKey .failed hand (.mild hand.clean rfl rfl (.inr ⟨"failed", by decide, rfl⟩))

/-- What a probe finds: a verdict on the key, a rate limit, or neither. -/
theorem readProbe_kind {at_ : Instant} {reply : ProbeReply} {result : CreditFetchResult}
    (read : readProbe foreign id at_ reply = .ok result) :
    (result.kind = .invalid ∧ Unauthorized reply) ∨
      (result.kind = .cooling ∧ ∃ json text, reply = .response 429 json text) ∨
      result.kind = .success ∨ result.kind = .error := by
  cases reply with
  | timeout =>
    cases read
    exact .inr (.inr (.inr rfl))
  | failed text =>
    cases read
    exact .inr (.inr (.inr rfl))
  | response statusCode json text =>
    simp only [readProbe] at read
    split at read
    · split at read
      · cases read
        exact .inr (.inr (.inr rfl))
      · split at read
        · rename_i parsed
          cases read
          simp only [readPayload] at parsed
          split at parsed
          · split at parsed
            · cases parsed
              exact .inr (.inr (.inr rfl))
            · simp only [Option.bind_eq_some_iff, Option.map_eq_some_iff] at parsed
              obtain ⟨_, _, _, _, _, _, rfl⟩ := parsed
              exact .inr (.inr (.inl rfl))
          · cases parsed
        · cases read
    · split at read
      · rename_i refused
        cases read
        exact .inl ⟨rfl, refused⟩
      · split at read
        · rename_i busy
          subst busy
          cases read
          exact .inr (.inl ⟨rfl, json, text, rfl⟩)
        · cases read
          exact .inr (.inr (.inr rfl))

/-- A probe finds a key invalid only when it is refused. -/
theorem readProbe_invalid {at_ : Instant} {reply : ProbeReply} {result : CreditFetchResult}
    (read : readProbe foreign id at_ reply = .ok result) (invalid : result.kind = .invalid) :
    Unauthorized reply := by
  rcases readProbe_kind read with ⟨_, refused⟩ | ⟨other, _⟩ | other | other
  · exact refused
  all_goals cases invalid.symm.trans other

/-- A cooling result is a probe's that was answered with 429. -/
theorem readProbe_cooling {at_ : Instant} {reply : ProbeReply} {result : CreditFetchResult}
    (read : readProbe foreign id at_ reply = .ok result) (cooling : result.kind = .cooling) :
    ∃ json text, reply = .response 429 json text := by
  rcases readProbe_kind read with ⟨other, _⟩ | ⟨_, busy⟩ | other | other
  case inr.inl => exact busy
  all_goals cases cooling.symm.trans other

/-- No probe finds that a key does not decrypt. -/
theorem readProbe_decrypted {at_ : Instant} {reply : ProbeReply} {result : CreditFetchResult}
    (read : readProbe foreign id at_ reply = .ok result) : result.kind ≠ .decryptFailed := by
  intro failed
  rcases readProbe_kind read with ⟨other, _⟩ | ⟨other, _⟩ | other | other
  all_goals cases failed.symm.trans other

/-- The verdict of a result was obtained. -/
structure Grounded (foreign : Foreign) (masterKey : Bytes) (reads : Op R → Prop)
    (events : Exchange R) (id : Nat) (result : CreditFetchResult) : Prop where
  undecryptable : result.kind = .decryptFailed →
    ∃ ciphertext, Evident foreign masterKey reads events id "decrypt_failed" ciphertext
  refused : result.kind = .invalid →
    ∃ ciphertext, Evident foreign masterKey reads events id "invalid" ciphertext

theorem Grounded.later {result : CreditFetchResult}
    (grounded : Grounded foreign masterKey reads before id result)
    (later : Later reads before after) : Grounded foreign masterKey reads after id result := by
  constructor
  · intro kind
    obtain ⟨ciphertext, evident⟩ := grounded.undecryptable kind
    exact ⟨ciphertext, evident.later later⟩
  · intro kind
    obtain ⟨ciphertext, evident⟩ := grounded.refused kind
    exact ⟨ciphertext, evident.later later⟩

/-- What applying a grounded result assigns is allowed. -/
theorem Grounded.allowed {result : CreditFetchResult} {columns : KeyColumns}
    (grounded : Grounded foreign masterKey reads events key.id result)
    (clean : key.current = key.loaded) (applied : Applied result key.current columns) :
    Allowed foreign masterKey reads events key columns := by
  cases applied with
  | decryptFailed kind => exact ⟨nofun, rfl, fun _ => grounded.undecryptable kind⟩
  | invalid kind => exact ⟨nofun, rfl, fun _ => grounded.refused kind⟩
  | cooling _ now _ => exact .mild clean rfl rfl (.inr ⟨"cooling", by decide, rfl⟩)
  | success _ snapshotId now next => exact .mild clean rfl rfl (.inl rfl)
  | error _ => exact .mild clean rfl rfl (.inl rfl)

theorem keepsApply (clock : ¬ reads .now) (flush : ∀ snapshot, ¬ reads (.flushSnapshot snapshot)) :
    KeepsApply (watching foreign masterKey reads offer) (Later reads history) := by
  constructor
  · rintro state since
    refine ⟨trivial, fun reply last moved => ?_⟩
    rw [show last = _ from moved]
    exact since.trans (.asked reply clock)
  · rintro snapshot state since
    refine ⟨trivial, fun reply last moved => ?_⟩
    rw [show last = _ from moved]
    exact since.trans (.asked reply (flush snapshot))

/-- A result is applied to the object as a whole or not at all. -/
theorem wp_applied {post : Except Exn (Option KeyObject) → Exchange R → Prop} (config : AppConfig R)
    (key : KeyObject) (result : CreditFetchResult)
    (ok : ∀ columns last, Later Reads history last → Applied result key.current columns →
      post (.ok (some { key with current := columns })) last)
    (failed : ∀ last, Later Reads history last → post (.ok none) last) :
    (((applyCreditFetchResult config key result).bind fun key => .done (some key)).attempt
      fun _ => .done none).wp (watching foreign masterKey Reads offer) post history := by
  rw [wp_attempt, wp_bind]
  exact wp_apply config key result (keepsApply False.elim fun _ => False.elim) (Later.refl history) ok failed

theorem wp_applyAndCommit (config : AppConfig R) (result : CreditFetchResult)
    (hand : Hand Reads offer history key)
    (grounded : Grounded foreign masterKey Reads history key.id result) :
    Handles foreign masterKey offer history key.id (applyAndCommit config key result) := by
  unfold applyAndCommit
  simp only [bind_eq, pure_eq]
  refine (wp_bind _).mpr (wp_applied config key result ?_ ?_)
  · intro columns last later applied
    refine Handles.mono later ?_
    have hand := hand.later later
    exact wp_commitKey .creditResult hand ((grounded.later later).allowed hand.clean applied)
  · intro last later
    exact (wp_rollback (hand.later later).offered).mono later

/-- The result of a probe of the object's secret is grounded. -/
theorem Hand.probed {secret : String} {clock : Instant} {reply : ProbeReply}
    {result : CreditFetchResult} (hand : Hand Reads offer events key)
    (opened : foreign.decryptApiKey masterKey key.current.apiKeyCiphertext = .ok secret)
    (read : readProbe foreign key.id clock reply = .ok result) :
    Grounded foreign masterKey Reads (events ++ [⟨.probe key.id secret, reply⟩]) key.id result := by
  refine ⟨fun kind => absurd kind (readProbe_decrypted read), fun kind => ?_⟩
  have evident := hand.refused (.probe key.id secret) reply False.elim opened
    ⟨rfl, rfl, readProbe_invalid read kind⟩
  exact ⟨_, evident⟩

theorem Hand.decryptFailed {error : String} {clock : Instant} (hand : Hand Reads offer events key)
    (failed : foreign.decryptApiKey masterKey key.current.apiKeyCiphertext = .error error) :
    Grounded foreign masterKey Reads events key.id (decryptFailedResult key.id error clock) :=
  ⟨fun _ => ⟨_, hand.undecryptable failed⟩, nofun⟩

theorem wp_refreshCreditsAfter4xx (config : AppConfig R) {given : Option Bytes}
    (known : ∀ other, given = some other → other = masterKey)
    (hand : Hand Reads offer history key) :
    Handles foreign masterKey offer history key.id
      (refreshCreditsAfter4xx foreign config given key) := by
  unfold refreshCreditsAfter4xx
  simp only [bind_eq, pure_eq]
  split
  · exact returned_same hand
  · rename_i other
    obtain rfl := known other rfl
    split
    · exact returned_same hand
    split
    · exact returned_same hand
    refine wp_put _ _ trivial fun now => wp_put _ _ trivial fun last => ?_
    have later : Later Reads history _ :=
      ((Later.refl history).then .monotonic now False.elim).then (.readRefresh key.id) last False.elim
    split
    · exact ⟨later, rfl, hand.later later⟩
    refine wp_put _ _ trivial fun kept => ?_
    have later := later.then (.keepRefresh key.id now) kept False.elim
    split
    · rename_i error failed
      refine wp_put _ _ trivial fun clock => ?_
      have later := later.then .now clock False.elim
      have hand := hand.later later
      exact (wp_applyAndCommit config _ hand (hand.decryptFailed failed)).mono later
    · rename_i secret opened
      refine wp_put _ _ trivial fun clock => ?_
      have since := later.then .now clock False.elim
      have earlier := hand.later since
      refine wp_put _ _ earlier.offered fun reply => ?_
      have later := since.then (.probe key.id secret) reply False.elim
      have hand := hand.later later
      split
      · exact ⟨later, rfl, hand⟩
      · rename_i result read
        refine Handles.mono later ?_
        exact wp_applyAndCommit config result hand (earlier.probed opened read)

end FcamGateway.KeyVerdicts
