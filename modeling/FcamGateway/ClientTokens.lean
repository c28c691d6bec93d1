import FcamGateway.ClientAdmin
import FcamGateway.PyFields
import Mathlib.Data.List.Nodup

/-! The tokens of clients, kept in a ledger beside the table. The table holds a hash and a sealed
copy of the token that a client was last given; the ledger says which token that is. Whatever the
administration does, who is let in and what is revealed goes by the ledger. -/
namespace FcamGateway.ClientTokens
open ClientAdmin Runs

/-- A token that was drawn for a client, with the key and the nonce of the time. -/
structure Issued where
  masterKey : String
  nonce : Bytes
  token : String
deriving DecidableEq

def Issued.hash (vault : Vault) (issued : Issued) : String :=
  vault.hmacSha256Hex (vault.deriveMasterKeyBytes issued.masterKey) issued.token

def Issued.sealed (vault : Vault) (issued : Issued) : Bytes :=
  vault.encryptClientToken (vault.deriveMasterKeyBytes issued.masterKey) issued.nonce issued.token

/-- `purge_client`, as far as the row of the client goes. -/
def purgeClient (clientId : Nat) (met : Circumstances) (clients : Clients) : Handled Unit :=
  match clients.get? clientId with
  | none => (.error notFound, clients)
  | some _ =>
    if met.commits then (.ok (), clients.delete fun id _ => id = clientId)
    else (.error dbUnavailable, clients)

def tokenNotStored : FcamError :=
  { statusCode := 404, code := "TOKEN_NOT_STORED"
    message := "该客户端创建于可再显示功能之前，库中无密文令牌。请轮换令牌后即可再次查看。" }

def decryptionFailed : FcamError :=
  { statusCode := 500, code := "DECRYPTION_FAILED"
    message := "无法解密客户端令牌，请检查 FCAM_MASTER_KEY 或轮换令牌" }

/-- `reveal_client_token`: the id, the name and the token. Its audit line may be lost. -/
def revealClientToken (vault : Vault) (decryptClientToken : Bytes → Bytes → Option String)
    (masterKey : Option String) (clientId : Nat) (clients : Clients) :
    Except FcamError (Nat × String × String) :=
  match masterKey with
  | none => .error notReady
  | some masterKey =>
    match clients.get? clientId with
    | none => .error notFound
    | some row =>
      if row.columns.status = "deleted" then .error notFound
      else
        match row.tokenCiphertext.filter (· ≠ []) with
        | none => .error tokenNotStored
        | some blob =>
          match decryptClientToken (vault.deriveMasterKeyBytes masterKey) blob with
          | none => .error decryptionFailed
          | some token => .ok (clientId, row.name, token)

/-- An operation of the administration. -/
inductive TokenOp where
  | admin (op : AdminOp)
  | purge (clientId : Nat)

/-- An operation as it is taken, under the master key of the time. -/
structure Taken where
  op : TokenOp
  masterKey : Option String
  met : Circumstances

/-- The clients after an operation. -/
def Taken.after (vault : Vault) (taken : Taken) (clients : Clients) : Clients :=
  match taken.op with
  | .admin op => perform vault taken.masterKey clients (op, taken.met)
  | .purge clientId => (purgeClient clientId taken.met clients).2

/-- The token that the caller is told, and whose it is. -/
def Taken.told (vault : Vault) (taken : Taken) (clients : Clients) : Option (Nat × String) :=
  match taken.op with
  | .admin (.create payload) =>
    (createClient vault taken.masterKey payload taken.met clients).1.toOption
  | .admin (.rotate clientId) =>
    (rotateClientToken vault taken.masterKey clientId taken.met clients).1.toOption
  | _ => none

/-- The token of a new client: the one asked for, or a generated one. -/
def chosenToken (payload : CreateClientRequest) (met : Circumstances) : String :=
  let rawToken := PyText.strip (payload.token.getD "")
  if rawToken = "" then met.generated else rawToken

/-- The client that an operation draws a token for, where it is carried out. -/
def Taken.drawn (taken : Taken) (clients : Clients) : Option (Nat × String) :=
  match taken.op with
  | .admin (.create payload) => some (clients.nextId, chosenToken payload taken.met)
  | .admin (.rotate clientId) => some (clientId, taken.met.generated)
  | _ => none

/-- The table and the ledger of the tokens that its clients were given. -/
structure Books where
  clients : Clients
  issued : Nat → Option Issued

/-- The entry of a client in the ledger after an operation: a new token if one was drawn for it and
written, none if its row is gone. -/
def Books.entry (vault : Vault) (books : Books) (taken : Taken) (id : Nat) : Option Issued :=
  if id ∉ (taken.after vault books.clients).ids then none
  else
    match taken.masterKey, taken.drawn books.clients with
    | some masterKey, some (drawnFor, token) =>
      if id = drawnFor ∧ taken.met.commits then some ⟨masterKey, taken.met.nonce, token⟩
      else books.issued id
    | _, _ => books.issued id

def Books.step (vault : Vault) (books : Books) (taken : Taken) : Option Books :=
  some ⟨taken.after vault books.clients, books.entry vault taken⟩

/-- A rotation that commits leaves `token_hash` unique. -/
def Unique (vault : Vault) (clients : Clients) (taken : Taken) : Prop :=
  ∀ clientId masterKey other row, taken.op = .admin (.rotate clientId) →
    taken.masterKey = some masterKey → taken.met.commits = true →
      clients.get? other = some row →
        row.tokenHash = vault.hmacSha256Hex (vault.deriveMasterKeyBytes masterKey)
          taken.met.generated → other = clientId

/-- The columns that hold a token. -/
def credentials (row : ClientRow) : String × Option Bytes := (row.tokenHash, row.tokenCiphertext)

def credentialsOf (vault : Vault) (issued : Issued) : String × Option Bytes :=
  (issued.hash vault, some (issued.sealed vault))

/-- The ledger tells what the table holds. -/
structure Balanced (vault : Vault) (books : Books) : Prop where
  absent : ∀ id, books.clients.get? id = none → books.issued id = none
  held : ∀ id row, books.clients.get? id = some row → ∃ issued, books.issued id = some issued ∧
    credentials row = credentialsOf vault issued
  apart : ∀ id other row same, books.clients.get? id = some row →
    books.clients.get? other = some same → row.tokenHash = same.tokenHash → id = other

/-- What an operation does to the tokens. -/
inductive Effect (vault : Vault) (clients : Clients) (taken : Taken) (next : Clients) : Prop where
  | kept : (∀ id, (next.get? id).map credentials = (clients.get? id).map credentials) →
      (∀ masterKey drawnFor token, taken.masterKey = some masterKey → taken.met.commits = true →
        taken.drawn clients = some (drawnFor, token) → clients.get? drawnFor = none) →
      Effect vault clients taken next
  | issued (masterKey : String) (drawnFor : Nat) (token : String) (row : ClientRow) :
      taken.masterKey = some masterKey → taken.drawn clients = some (drawnFor, token) →
      taken.met.commits = true →
      (∀ id, next.get? id = if id = drawnFor then some row else clients.get? id) →
      credentials row = credentialsOf vault ⟨masterKey, taken.met.nonce, token⟩ →
      (∀ other old, clients.get? other = some old → old.tokenHash = row.tokenHash →
        other = drawnFor) → Effect vault clients taken next
  | purged (gone : Nat) : taken.op = .purge gone →
      (∀ id, next.get? id = if id = gone then none else clients.get? id) →
      Effect vault clients taken next

variable {vault : Vault} {taken : Taken} {clients : Clients} {books start middle last : Books}
  {id : Nat} {row : ClientRow} {masterKey : String}

/-- A creation writes a row of its own and tells its token, or leaves the table as it is. -/
inductive Created (vault : Vault) (masterKey : Option String) (payload : CreateClientRequest)
    (met : Circumstances) (clients : Clients) : Handled (Nat × String) → Prop where
  | refused (error : FcamError) : Created vault masterKey payload met clients (.error error, clients)
  | inserted (key : String) (row : ClientRow) (next : Clients) (answer : Except FcamError Unit) :
      masterKey = some key → met.commits = true →
      clients.insert? clients.nextId row = some next →
      credentials row = credentialsOf vault ⟨key, met.nonce, chosenToken payload met⟩ →
      (∀ other old, clients.get? other = some old → old.tokenHash ≠ row.tokenHash) →
      Created vault masterKey payload met clients
        (answer.map fun _ => (clients.nextId, chosenToken payload met), next)

theorem createClient_cases (vault : Vault) (masterKey : Option String) (payload : CreateClientRequest)
    (met : Circumstances) (clients : Clients) : Created vault masterKey payload met clients
      (createClient vault masterKey payload met clients) := by
  cases masterKey with
  | none => exact .refused notReady
  | some key =>
    have chosen : (if PyText.strip (payload.token.getD "") = "" then met.generated
        else PyText.strip (payload.token.getD "")) = chosenToken payload met := rfl
    unfold createClient
    dsimp only
    rw [chosen]
    generalize (if PyText.strip (payload.token.getD "") = "" then none
      else tokenComplexity vault (PyText.strip (payload.token.getD ""))) = refusal
    cases refusal with
    | some message => exact .refused _
    | none =>
      dsimp only
      split
      · exact .refused _
      · rename_i single
        split
        · rename_i next commits added
          have fresh (other : Nat) (old : ClientRow) (found : clients.get? other = some old) :
              old.tokenHash ≠ vault.hmacSha256Hex (vault.deriveMasterKeyBytes key)
                (chosenToken payload met) := by
            refine fun same => single (List.any_eq_true.mpr
              ⟨(other, old), Table.mem_entries.mpr found, ?_⟩)
            exact Bool.or_eq_true_iff.mpr (.inr (decide_eq_true same))
          by_cases refreshes : met.refreshes = true
          · rw [if_pos refreshes]
            exact .inserted key _ next (.ok ()) rfl commits added rfl fresh
          · rw [if_neg refreshes]
            exact .inserted key _ next (.error dbUnavailable) rfl commits added rfl fresh
        · exact .refused _

theorem nextId_free (clients : Clients) : clients.get? clients.nextId = none := by
  by_contra present
  obtain ⟨row, found⟩ := Option.ne_none_iff_exists'.mp present
  obtain ⟨next, added⟩ := Table.insert_nextId clients row
  exact Nat.lt_irrefl _ ((Table.insert_some added).1 _ (Table.get_some.mp found).1)

theorem create_effect {payload : CreateClientRequest} (op : taken.op = .admin (.create payload)) :
    Effect vault clients taken (taken.after vault clients) := by
  have drawn : taken.drawn clients = some (clients.nextId, chosenToken payload taken.met) := by
    rw [Taken.drawn, op]
  have after : taken.after vault clients =
      (createClient vault taken.masterKey payload taken.met clients).2 := by
    rw [Taken.after, op]
    rfl
  have cases := createClient_cases vault taken.masterKey payload taken.met clients
  rw [after]
  generalize createClient vault taken.masterKey payload taken.met clients = handled at cases
  cases cases with
  | refused error =>
    refine .kept (fun _ => rfl) fun _ drawnFor token _ _ same => ?_
    obtain ⟨rfl, -⟩ := Prod.mk.inj (Option.some.inj (drawn.symm.trans same))
    exact nextId_free clients
  | inserted key row next answer keyed commits added holds fresh =>
    exact .issued key clients.nextId _ row keyed drawn commits (Table.get_insert added) holds
      fun other old found same => absurd same (fresh other old found)

/-- A rotation replaces the token of a client and tells it, or leaves the table as it is. -/
inductive Rotated (vault : Vault) (masterKey : Option String) (clientId : Nat) (met : Circumstances)
    (clients : Clients) : Handled (Nat × String) → Prop where
  | refused (error : FcamError) :
      (masterKey ≠ none → met.commits = true → clients.get? clientId = none) →
      Rotated vault masterKey clientId met clients (.error error, clients)
  | replaced (key : String) (row : ClientRow) (next : Clients) : masterKey = some key →
      met.commits = true → clients.get? clientId ≠ none →
      (∀ id, next.get? id = if id = clientId then some row else clients.get? id) →
      credentials row = credentialsOf vault ⟨key, met.nonce, met.generated⟩ →
      Rotated vault masterKey clientId met clients (.ok (clientId, met.generated), next)

theorem rotateClientToken_cases (vault : Vault) (masterKey : Option String) (clientId : Nat)
    (met : Circumstances) (clients : Clients) : Rotated vault masterKey clientId met clients
      (rotateClientToken vault masterKey clientId met clients) := by
  unfold rotateClientToken
  split
  · exact .refused _ fun keyed => absurd rfl keyed
  · rename_i key
    split
    · rename_i missing
      exact .refused _ fun _ _ => missing
    · rename_i row found
      dsimp only
      split
      · rename_i commits
        refine .replaced key { row with
          tokenHash := vault.hmacSha256Hex (vault.deriveMasterKeyBytes key) met.generated
          tokenCiphertext := some (vault.encryptClientToken (vault.deriveMasterKeyBytes key)
            met.nonce met.generated) } _ rfl commits (by simp [found]) (fun id => ?_) rfl
        rw [Table.get_modify]
        split
        · rename_i same
          rw [same, found]
          rfl
        · rfl
      · rename_i fails
        exact .refused _ fun _ commits => absurd commits fails

theorem rotate_effect {clientId : Nat} (op : taken.op = .admin (.rotate clientId))
    (unique : Unique vault clients taken) :
    Effect vault clients taken (taken.after vault clients) := by
  have drawn : taken.drawn clients = some (clientId, taken.met.generated) := by
    rw [Taken.drawn, op]
  have after : taken.after vault clients =
      (rotateClientToken vault taken.masterKey clientId taken.met clients).2 := by
    rw [Taken.after, op]
    rfl
  have cases := rotateClientToken_cases vault taken.masterKey clientId taken.met clients
  rw [after]
  generalize rotateClientToken vault taken.masterKey clientId taken.met clients = handled at cases
  cases cases with
  | refused error missing =>
    refine .kept (fun _ => rfl) fun _ drawnFor token keyed commits same => ?_
    obtain ⟨rfl, -⟩ := Prod.mk.inj (Option.some.inj (drawn.symm.trans same))
    exact missing (by simp [keyed]) commits
  | replaced key row next keyed commits _ rows holds =>
    refine .issued key clientId _ row keyed drawn commits rows holds fun other old found same => ?_
    exact unique _ _ _ _ op keyed commits found (same.trans (congrArg Prod.fst holds))

theorem purge_effect {clientId : Nat} (op : taken.op = .purge clientId) :
    Effect vault clients taken (taken.after vault clients) := by
  have drawn : taken.drawn clients = none := by rw [Taken.drawn, op]
  have unchanged : Effect vault clients taken clients :=
    .kept (fun _ => rfl) fun _ _ _ _ _ same => absurd (drawn.symm.trans same) nofun
  have after : taken.after vault clients = (purgeClient clientId taken.met clients).2 := by
    rw [Taken.after, op]
  rw [after]
  simp only [purgeClient]
  split
  · exact unchanged
  · split
    · refine .purged clientId op fun id => ?_
      rw [Table.get_delete]
      by_cases same : id = clientId <;> cases clients.get? id <;> simp [same]
    · exact unchanged

/-- The other operations leave the tokens as they are. -/
theorem other_effect {op : AdminOp} (admin : taken.op = .admin op)
    (drawn : taken.drawn clients = none) :
    Effect vault clients taken (taken.after vault clients) := by
  refine .kept (fun id => ?_) fun _ _ _ _ _ same => absurd (drawn.symm.trans same) nofun
  have rewritten (change : ClientColumns → ClientColumns) (found : Option ClientRow) :
      (found.map fun row => { row with columns := change row.columns }).map credentials =
        found.map credentials := by
    rw [Option.map_map]
    rfl
  have modified (clientId : Nat) (change : ClientColumns → ClientColumns) :
      ((clients.modify clientId fun row => { row with columns := change row.columns }).get? id).map
        credentials = (clients.get? id).map credentials := by
    rw [Table.get_modify]
    split
    · exact rewritten change _
    · rfl
  rw [Taken.after, admin]
  cases op with
  | create payload => simp [Taken.drawn, admin] at drawn
  | rotate clientId => simp [Taken.drawn, admin] at drawn
  | update clientId payload =>
    simp only [perform, updateClient]
    split
    · rfl
    · split
      · rfl
      · split
        · rename_i columns _ _
          exact modified clientId fun _ => columns
        · rfl
  | delete clientId =>
    simp only [perform, deleteClient]
    split
    · rfl
    · split
      · exact modified clientId _
      · rfl
  | batch clientIds action =>
    simp only [perform, batchUpdateClients]
    split
    · rw [← batched, get_batched, Option.map_map]
      congr 1
      funext row
      simp only [Function.comp_apply]
      split <;> rfl
    · rfl

theorem step_effect (unique : Unique vault clients taken) :
    Effect vault clients taken (taken.after vault clients) := by
  cases op : taken.op with
  | purge clientId => exact purge_effect op
  | admin admin =>
    cases admin with
    | create payload => exact create_effect op
    | rotate clientId => exact rotate_effect op unique
    | update clientId payload => exact other_effect op (by rw [Taken.drawn, op])
    | delete clientId => exact other_effect op (by rw [Taken.drawn, op])
    | batch clientIds action => exact other_effect op (by rw [Taken.drawn, op])

theorem entry_absent (absent : (taken.after vault books.clients).get? id = none) :
    books.entry vault taken id = none := by
  rw [Books.entry, if_pos (Table.get_none.mp absent)]

/-- A client that an operation draws no token for keeps its entry. -/
theorem entry_kept (present : (taken.after vault books.clients).get? id = some row)
    (undrawn : ∀ masterKey drawnFor token, taken.masterKey = some masterKey →
      taken.met.commits = true → taken.drawn books.clients = some (drawnFor, token) →
        id ≠ drawnFor) : books.entry vault taken id = books.issued id := by
  rw [Books.entry, if_neg (not_not.mpr (Table.get_some.mp present).1)]
  split
  · rename_i masterKey drawnFor token keyed drawn
    rw [if_neg fun same => undrawn _ _ _ keyed same.2 drawn same.1]
  · rfl

theorem entry_issued {token : String}
    (present : (taken.after vault books.clients).get? id = some row)
    (keyed : taken.masterKey = some masterKey) (drawn : taken.drawn books.clients = some (id, token))
    (commits : taken.met.commits = true) :
    books.entry vault taken id = some ⟨masterKey, taken.met.nonce, token⟩ := by
  rw [Books.entry, if_neg (not_not.mpr (Table.get_some.mp present).1), keyed, drawn]
  exact if_pos ⟨rfl, commits⟩

theorem Balanced.step (balanced : Balanced vault books) (unique : Unique vault books.clients taken) :
    Balanced vault ⟨taken.after vault books.clients, books.entry vault taken⟩ := by
  refine ⟨fun id absent => entry_absent absent, fun id row present => ?_,
    fun id other row same present there alike => ?_⟩
  · cases step_effect unique with
    | kept rows undrawn =>
      have before := rows id
      rw [present, Option.map_some, eq_comm, Option.map_eq_some_iff] at before
      obtain ⟨old, found, kept⟩ := before
      obtain ⟨issued, entered, holds⟩ := balanced.held id old found
      refine ⟨issued, ?_, kept.symm.trans holds⟩
      refine (entry_kept present fun _ drawnFor _ keyed commits drawn own => ?_).trans entered
      have free := undrawn _ _ _ keyed commits drawn
      rw [← own, found] at free
      cases free
    | issued masterKey drawnFor token new keyed drawn commits rows holds _ =>
      have now := rows id
      by_cases own : id = drawnFor
      · rw [if_pos own, present] at now
        cases now
        subst own
        exact ⟨_, entry_issued present keyed drawn commits, holds⟩
      · rw [if_neg own, present] at now
        obtain ⟨issued, entered, holds⟩ := balanced.held id row now.symm
        refine ⟨issued, (entry_kept present fun _ other _ _ _ again => ?_).trans entered, holds⟩
        obtain ⟨rfl, -⟩ := Prod.mk.inj (Option.some.inj (drawn.symm.trans again))
        exact own
    | purged gone op rows =>
      have now := rows id
      rw [present] at now
      split at now
      · cases now
      · obtain ⟨issued, entered, holds⟩ := balanced.held id row now.symm
        refine ⟨issued, (entry_kept present fun _ _ _ _ _ drawn => ?_).trans entered, holds⟩
        simp [Taken.drawn, op] at drawn
  · cases step_effect unique with
    | kept rows _ =>
      have one := rows id
      have two := rows other
      rw [present, Option.map_some, eq_comm, Option.map_eq_some_iff] at one
      rw [there, Option.map_some, eq_comm, Option.map_eq_some_iff] at two
      obtain ⟨first, found, kept⟩ := one
      obtain ⟨second, listed, held⟩ := two
      refine balanced.apart id other first second found listed ?_
      exact (congrArg Prod.fst kept).trans (alike.trans (congrArg Prod.fst held).symm)
    | issued masterKey drawnFor token new _ _ _ rows _ fresh =>
      have one := rows id
      have two := rows other
      rw [present] at one
      rw [there] at two
      split at one <;> split at two
      · exact (‹id = drawnFor›).trans (‹other = drawnFor›).symm
      · cases one
        exact (‹id = drawnFor›).trans (fresh other same two.symm alike.symm).symm
      · cases two
        exact (fresh id row one.symm alike).trans (‹other = drawnFor›).symm
      · exact balanced.apart id other row same one.symm two.symm alike
    | purged gone _ rows =>
      have one := rows id
      have two := rows other
      rw [present] at one
      rw [there] at two
      split at one
      · cases one
      · split at two
        · cases two
        · exact balanced.apart id other row same one.symm two.symm alike

/-- No client and no entry. -/
def unopened (filler : ClientRow) : Books := ⟨.empty filler, fun _ => none⟩

theorem balanced_unopened (filler : ClientRow) : Balanced vault (unopened filler) :=
  ⟨fun _ _ => rfl, fun _ _ found => (nomatch (Table.get_some.mp found).1),
    fun _ _ _ _ found => (nomatch (Table.get_some.mp found).1)⟩

theorem run_balanced {steps : List Taken} (balanced : Balanced vault start)
    (ran : run (Books.step vault) start steps = some last)
    (unique : Meets (Books.step vault) (fun books => Unique vault books.clients) start steps) :
    Balanced vault last := by
  refine guarded_run_preserves (fun books taken next held unique stepped => ?_) steps balanced
    unique ran
  cases stepped
  exact held.step unique

theorem entries_nodup (clients : Clients) : clients.entries.Nodup := by
  refine List.Nodup.of_map Prod.fst ?_
  rw [Table.entries, List.map_map]
  exact (List.map_id clients.ids).symm ▸ clients.nodup

/-- The one client that has the hash. -/
theorem filter_hash {hash : String} (balanced : Balanced vault books) :
    (books.clients.entries.filter fun entry => entry.2.tokenHash = hash) = [(id, row)] ↔
      books.clients.get? id = some row ∧ row.tokenHash = hash := by
  constructor
  · intro only
    have member := List.mem_filter.mp (only ▸ List.mem_singleton_self (id, row))
    exact ⟨Table.mem_entries.mp member.1, of_decide_eq_true member.2⟩
  · rintro ⟨found, hashed⟩
    refine List.Perm.eq_singleton ((List.perm_ext_iff_of_nodup
      ((entries_nodup _).filter _) (List.nodup_singleton _)).mpr fun entry => ?_)
    rw [List.mem_filter, List.mem_singleton, decide_eq_true_eq]
    constructor
    · rintro ⟨member, alike⟩
      have there := Table.mem_entries.mp member
      obtain rfl := balanced.apart _ _ _ _ there found (alike.trans hashed.symm)
      rw [found] at there
      exact Prod.ext rfl (Option.some.inj there).symm
    · rintro rfl
      exact ⟨Table.mem_entries.mpr found, hashed⟩

theorem requireClient_iff {authorization : Option String} (balanced : Balanced vault books) :
    requireClient vault (some masterKey) authorization true books.clients = .ok (id, row) ↔
      ∃ token, bearerToken authorization = some token ∧ books.clients.get? id = some row ∧
        row.tokenHash = vault.hmacSha256Hex (vault.deriveMasterKeyBytes masterKey) token ∧
          row.columns.isActive = true := by
  simp only [requireClient]
  cases bearerToken authorization with
  | none => simp
  | some token =>
    have one : (books.clients.entries.filter fun entry => entry.2.tokenHash =
        vault.hmacSha256Hex (vault.deriveMasterKeyBytes masterKey) token) = [(id, row)] ↔
          books.clients.get? id = some row ∧
            row.tokenHash = vault.hmacSha256Hex (vault.deriveMasterKeyBytes masterKey) token :=
      filter_hash balanced
    simp only [Bool.not_true, Bool.false_eq_true, if_false]
    constructor
    · intro passed
      split at passed
      · cases passed
      · rename_i entry only
        split at passed
        · rename_i active
          cases passed
          obtain ⟨found, hashed⟩ := one.mp only
          exact ⟨token, rfl, found, hashed, active⟩
        · cases passed
      · cases passed
    · rintro ⟨_, ⟨⟩, found, hashed, active⟩
      rw [one.mpr ⟨found, hashed⟩]
      exact if_pos active

/-- Sealing is undone under the same key, and what is sealed is not empty. -/
structure Opens (vault : Vault) (decryptClientToken : Bytes → Bytes → Option String) : Prop where
  opened : ∀ key nonce token,
    decryptClientToken key (vault.encryptClientToken key nonce token) = some token
  filled : ∀ key nonce token, vault.encryptClientToken key nonce token ≠ []

/-- What the ledger is good for. A client is let in exactly with the token of its entry, or one of
the same hash, while it is active; no two clients have one token; and what is revealed of a client
that is not deleted is the token of its entry. -/
structure Kept (vault : Vault) (decryptClientToken : Bytes → Bytes → Option String)
    (books : Books) : Prop where
  admits : ∀ masterKey authorization id row,
    requireClient vault (some masterKey) authorization true books.clients = .ok (id, row) ↔
      ∃ issued token, books.issued id = some issued ∧ bearerToken authorization = some token ∧
        vault.hmacSha256Hex (vault.deriveMasterKeyBytes masterKey) token = issued.hash vault ∧
          books.clients.get? id = some row ∧ row.columns.isActive = true
  apart : ∀ id other issued same, books.issued id = some issued → books.issued other = some same →
    issued.hash vault = same.hash vault → id = other
  reveals : ∀ id row issued masterKey, books.clients.get? id = some row →
    row.columns.status ≠ "deleted" → books.issued id = some issued →
      vault.deriveMasterKeyBytes masterKey = vault.deriveMasterKeyBytes issued.masterKey →
        revealClientToken vault decryptClientToken (some masterKey) id books.clients =
          .ok (id, row.name, issued.token)

/-- The row that an entry belongs to. -/
theorem Balanced.present {issued : Issued} (balanced : Balanced vault books)
    (entered : books.issued id = some issued) :
    ∃ row, books.clients.get? id = some row ∧ credentials row = credentialsOf vault issued := by
  cases found : books.clients.get? id with
  | none => exact absurd ((balanced.absent id found).symm.trans entered) nofun
  | some row =>
    obtain ⟨same, again, holds⟩ := balanced.held id row found
    obtain rfl := Option.some.inj (again.symm.trans entered)
    exact ⟨row, rfl, holds⟩

theorem Balanced.hashed {issued : Issued} (balanced : Balanced vault books)
    (found : books.clients.get? id = some row) (entered : books.issued id = some issued) :
    row.tokenHash = issued.hash vault ∧ row.tokenCiphertext = some (issued.sealed vault) := by
  obtain ⟨same, again, holds⟩ := balanced.held id row found
  obtain rfl := Option.some.inj (again.symm.trans entered)
  exact Prod.mk.inj holds

/-- Over any run of the administration, with master keys that may change, who is let in and what is
revealed goes by the tokens that were drawn. -/
theorem tokens_kept {decryptClientToken : Bytes → Bytes → Option String} {filler : ClientRow}
    {steps : List Taken} (opens : Opens vault decryptClientToken)
    (ran : run (Books.step vault) (unopened filler) steps = some last)
    (unique : Meets (Books.step vault) (fun books => Unique vault books.clients) (unopened filler)
      steps) : Kept vault decryptClientToken last := by
  have balanced := run_balanced (balanced_unopened filler) ran unique
  refine ⟨fun masterKey authorization id row => ?_, fun id other issued same one two alike => ?_,
    fun id row issued masterKey found live entered key => ?_⟩
  · rw [requireClient_iff balanced]
    constructor
    · rintro ⟨token, presented, found, hash, active⟩
      obtain ⟨issued, entered, holds⟩ := balanced.held id row found
      exact ⟨issued, token, entered, presented,
        hash.symm.trans (congrArg Prod.fst holds), found, active⟩
    · rintro ⟨issued, token, entered, presented, hash, found, active⟩
      exact ⟨token, presented, found, (balanced.hashed found entered).1.trans hash.symm, active⟩
  · obtain ⟨first, found, holds⟩ := balanced.present one
    obtain ⟨second, there, keeps⟩ := balanced.present two
    refine balanced.apart id other first second found there ?_
    exact (congrArg Prod.fst holds).trans (alike.trans (congrArg Prod.fst keeps).symm)
  · have blob := (balanced.hashed found entered).2
    simp only [revealClientToken, found, blob, if_neg live, Option.filter_some]
    have filled : issued.sealed vault ≠ [] := opens.filled _ _ _
    rw [if_pos (decide_eq_true filled), key]
    simp only [Issued.sealed, opens.opened]

/-- Sealing that only puts a byte before the text. -/
def markingVault : Vault :=
  { plainVault with encryptClientToken := fun _ _ token => 0 :: token.toByteArray.data.toList }

def unmark (_ blob : Bytes) : Option String := String.fromUTF8? ⟨blob.tail.toArray⟩

theorem unmark_opens : Opens markingVault unmark where
  opened _ _ token := dif_pos token.isValidUTF8
  filled _ _ _ := List.cons_ne_nil _ _

def drawing (token : String) : Circumstances := { smooth with generated := token }

def byAdmin (op : TokenOp) (token : String) : Taken := ⟨op, some "master", drawing token⟩

/-- Two clients are created, the first is given another token, and the second is removed. -/
def twoTokens : List Taken :=
  [byAdmin (.admin (.create { name := "one" })) "fcam_client_a",
    byAdmin (.admin (.create { name := "two" })) "fcam_client_b",
    byAdmin (.admin (.rotate 1)) "fcam_client_c", byAdmin (.purge 2) ""]

theorem unique_unrotated (other : ∀ clientId, taken.op ≠ .admin (.rotate clientId)) :
    Unique vault clients taken :=
  fun clientId _ _ _ op => absurd op (other clientId)

def noBooks : Books := unopened ⟨"", "", none, {}⟩

theorem two_tokens_kept : ∃ last, run (Books.step markingVault) noBooks twoTokens = some last ∧
    last.issued 1 = some ⟨"master", [], "fcam_client_c"⟩ ∧ last.issued 2 = none ∧
      Kept markingVault unmark last := by
  have unique : Meets (Books.step markingVault) (fun books => Unique markingVault books.clients)
      noBooks twoTokens := by
    refine ⟨unique_unrotated nofun, fun _ stepped => ?_⟩
    cases stepped
    refine ⟨unique_unrotated nofun, fun _ stepped => ?_⟩
    cases stepped
    refine ⟨?_, fun _ stepped => ⟨unique_unrotated nofun, fun _ _ => trivial⟩⟩
    rintro clientId key other row - - - found same
    have hashes : ∀ entry ∈ Table.entries ((byAdmin (.admin (.create { name := "two" }))
        "fcam_client_b").after markingVault ((byAdmin (.admin (.create { name := "one" }))
          "fcam_client_a").after markingVault noBooks.clients)),
        entry.2.tokenHash ≠ "fcam_client_c" := by decide
    exact absurd same (hashes _ (Table.mem_entries.mpr found))
  exact ⟨_, rfl, rfl, rfl, tokens_kept unmark_opens rfl unique⟩

/-! ### A token that a client was told -/

/-- The operation neither draws another token for the client nor removes its row. -/
def Spares (id : Nat) (taken : Taken) : Prop :=
  taken.op ≠ .admin (.rotate id) ∧ taken.op ≠ .purge id

theorem told_created {payload : CreateClientRequest} {token : String}
    (op : taken.op = .admin (.create payload)) (told : taken.told vault clients = some (id, token)) :
    ∃ key row, taken.masterKey = some key ∧ taken.met.commits = true ∧
      taken.drawn clients = some (id, token) ∧ (taken.after vault clients).get? id = some row ∧
        token = chosenToken payload taken.met := by
  have after : taken.after vault clients =
      (createClient vault taken.masterKey payload taken.met clients).2 := by
    rw [Taken.after, op]
    rfl
  have cases := createClient_cases vault taken.masterKey payload taken.met clients
  rw [after, Taken.drawn, op]
  simp only [Taken.told, op] at told
  generalize createClient vault taken.masterKey payload taken.met clients = handled at cases told
  cases cases with
  | refused error => cases told
  | inserted key row next answer keyed commits added _ _ =>
    cases answer with
    | error error => cases told
    | ok _ =>
      obtain ⟨rfl, rfl⟩ := Prod.mk.inj (Option.some.inj told)
      exact ⟨key, row, keyed, commits, rfl, by rw [Table.get_insert added, if_pos rfl], rfl⟩

theorem told_rotated {clientId : Nat} {token : String}
    (op : taken.op = .admin (.rotate clientId)) (told : taken.told vault clients = some (id, token)) :
    ∃ key row, taken.masterKey = some key ∧ taken.met.commits = true ∧
      taken.drawn clients = some (id, token) ∧ (taken.after vault clients).get? id = some row ∧
        token = taken.met.generated := by
  have after : taken.after vault clients =
      (rotateClientToken vault taken.masterKey clientId taken.met clients).2 := by
    rw [Taken.after, op]
    rfl
  have cases := rotateClientToken_cases vault taken.masterKey clientId taken.met clients
  rw [after, Taken.drawn, op]
  simp only [Taken.told, op] at told
  generalize rotateClientToken vault taken.masterKey clientId taken.met clients = handled
    at cases told
  cases cases with
  | refused error _ => cases told
  | replaced key row next keyed commits _ rows _ =>
    obtain ⟨rfl, rfl⟩ := Prod.mk.inj (Option.some.inj told)
    exact ⟨key, row, keyed, commits, rfl, by rw [rows, if_pos rfl], rfl⟩

/-- A generated token has no white space around it. -/
def Bare (token : String) : Prop := PyText.strip token = token ∧ token ≠ ""

/-- The token that a caller is told is the one in the ledger, and can be sent as it is. -/
theorem told_entered {token : String} (generated : Bare taken.met.generated)
    (told : taken.told vault books.clients = some (id, token)) :
    Bare token ∧ (∃ row, (taken.after vault books.clients).get? id = some row) ∧
      ∃ key, taken.masterKey = some key ∧
        books.entry vault taken id = some ⟨key, taken.met.nonce, token⟩ := by
  cases op : taken.op with
  | purge clientId => simp [Taken.told, op] at told
  | admin admin =>
    cases admin with
    | create payload =>
      obtain ⟨key, row, keyed, commits, drawn, present, chosen⟩ := told_created op told
      refine ⟨?_, ⟨row, present⟩, key, keyed, entry_issued present keyed drawn commits⟩
      rw [chosen, chosenToken]
      split
      · exact generated
      · rename_i named
        refine ⟨?_, named⟩
        simp only [PyText.strip, String.toList_ofList, PyText.stripChars_stripChars]
    | rotate clientId =>
      obtain ⟨key, row, keyed, commits, drawn, present, rfl⟩ := told_rotated op told
      exact ⟨generated, ⟨row, present⟩, key, keyed, entry_issued present keyed drawn commits⟩
    | update clientId payload => simp [Taken.told, op] at told
    | delete clientId => simp [Taken.told, op] at told
    | batch clientIds action => simp [Taken.told, op] at told

/-- An entry stays through operations that spare its client. -/
theorem entry_spared {issued : Issued} (spares : Spares id taken)
    (unique : Unique vault books.clients taken) (found : books.clients.get? id = some row)
    (entered : books.issued id = some issued) :
    (∃ row, (taken.after vault books.clients).get? id = some row) ∧
      books.entry vault taken id = some issued := by
  have stays (later : ClientRow) (present : (taken.after vault books.clients).get? id = some later)
      (undrawn : ∀ drawnFor token, taken.drawn books.clients = some (drawnFor, token) →
        id ≠ drawnFor) : (∃ row, (taken.after vault books.clients).get? id = some row) ∧
          books.entry vault taken id = some issued :=
    ⟨⟨later, present⟩, (entry_kept present fun _ drawnFor token _ _ => undrawn drawnFor token).trans
      entered⟩
  have undrawn (drawnFor : Nat) (token : String)
      (drawn : taken.drawn books.clients = some (drawnFor, token)) : id ≠ drawnFor := by
    rintro rfl
    obtain ⟨op, masterKey, met⟩ := taken
    rcases op with (payload | _ | _ | clientId | _) | _ <;> simp only [Taken.drawn] at drawn
    · obtain ⟨same, -⟩ := Prod.mk.inj (Option.some.inj drawn)
      rw [← same, nextId_free] at found
      cases found
    · cases drawn
    · cases drawn
    · obtain ⟨rfl, -⟩ := Prod.mk.inj (Option.some.inj drawn)
      exact spares.1 rfl
    · cases drawn
    · cases drawn
  cases step_effect unique with
  | kept rows _ =>
    have kept := rows id
    rw [found, Option.map_some, Option.map_eq_some_iff] at kept
    obtain ⟨later, present, -⟩ := kept
    exact stays later present undrawn
  | issued _ drawnFor token _ _ drawn _ rows _ _ =>
    have kept := rows id
    rw [if_neg (undrawn drawnFor token drawn), found] at kept
    exact stays row kept undrawn
  | purged gone op rows =>
    have kept := rows id
    have other : id ≠ gone := by
      rintro rfl
      exact spares.2 op
    rw [if_neg other, found] at kept
    exact stays row kept undrawn

theorem run_spared {issued : Issued} {back : List Taken} (spares : ∀ later ∈ back, Spares id later)
    (found : middle.clients.get? id = some row) (entered : middle.issued id = some issued)
    (ran : run (Books.step vault) middle back = some last)
    (unique : Meets (Books.step vault) (fun books => Unique vault books.clients) middle back) :
    last.issued id = some issued := by
  induction back generalizing middle row with
  | nil =>
    cases ran
    exact entered
  | cons first back ih =>
    obtain ⟨next, stepped, ran⟩ := run_cons ran
    cases stepped
    obtain ⟨⟨later, present⟩, kept⟩ :=
      entry_spared (spares first List.mem_cons_self) unique.1 found entered
    exact ih (fun later member => spares later (List.mem_cons_of_mem _ member)) present kept ran
      (unique.2 _ rfl)

theorem bearerToken_bare {token : String} (bare : Bare token) :
    bearerToken (some ("Bearer " ++ token)) = some token := by
  have parts : ("Bearer " ++ token).toList.span (· != ' ') =
      ("Bearer".toList, ' ' :: token.toList) := by
    rw [String.toList_append, List.span_eq_takeWhile_dropWhile]
    rfl
  have scheme : PyText.lower "Bearer" = "bearer" := by decide
  simp only [bearerToken, parts, String.ofList_toList, scheme, ne_eq, not_true_eq_false, if_false,
    bare.1, if_neg bare.2]

/-- The token that a caller is told lets in its client and no other, while the client is active,
until another token is drawn for the client or its row is removed. -/
theorem told_token_serves {filler : ClientRow} {front back : List Taken} {token key : String}
    (ran : run (Books.step vault) (unopened filler) front = some middle)
    (told : taken.told vault middle.clients = some (id, token))
    (went : run (Books.step vault) middle (taken :: back) = some last)
    (before : Meets (Books.step vault) (fun books => Unique vault books.clients) (unopened filler)
      front)
    (since : Meets (Books.step vault) (fun books => Unique vault books.clients) middle
      (taken :: back))
    (generated : Bare taken.met.generated) (spares : ∀ later ∈ back, Spares id later)
    (keyed : taken.masterKey = some key)
    (same : vault.deriveMasterKeyBytes masterKey = vault.deriveMasterKeyBytes key) (other : Nat)
    (row : ClientRow) :
    requireClient vault (some masterKey) (some ("Bearer " ++ token)) true last.clients =
      .ok (other, row) ↔
        other = id ∧ last.clients.get? id = some row ∧ row.columns.isActive = true := by
  obtain ⟨bare, ⟨written, present⟩, _, again, entered⟩ := told_entered generated told
  obtain rfl := Option.some.inj (keyed.symm.trans again)
  have balanced := run_balanced (run_balanced (balanced_unopened filler) ran before) went since
  obtain ⟨next, stepped, rest⟩ := run_cons went
  cases stepped
  have kept := run_spared spares present entered rest (since.2 _ rfl)
  rw [requireClient_iff balanced, same, bearerToken_bare bare]
  constructor
  · rintro ⟨_, ⟨⟩, found, hashed, active⟩
    obtain ⟨own, there, holds⟩ := balanced.present kept
    obtain rfl := balanced.apart _ _ _ _ found there
      (hashed.trans (congrArg Prod.fst holds).symm)
    exact ⟨rfl, found, active⟩
  · rintro ⟨rfl, found, active⟩
    exact ⟨token, rfl, found, (balanced.hashed found kept).1, active⟩

def oneClient : Taken := byAdmin (.admin (.create { name := "one" })) "fcam_client_a"

/-- Another client comes and goes. -/
def passing : List Taken :=
  [byAdmin (.admin (.create { name := "two" })) "fcam_client_b", byAdmin (.purge 2) ""]

theorem told_token_lets_in : ∃ last row,
    run (Books.step markingVault) noBooks (oneClient :: passing) = some last ∧
      requireClient markingVault (some "master") (some ("Bearer " ++ "fcam_client_a")) true
        last.clients = .ok (1, row) := by
  have ran : run (Books.step markingVault) noBooks [] = some noBooks := rfl
  have unique : Meets (Books.step markingVault) (fun books => Unique markingVault books.clients)
      noBooks (oneClient :: passing) :=
    ⟨unique_unrotated nofun, fun _ _ => ⟨unique_unrotated nofun, fun _ _ =>
      ⟨unique_unrotated nofun, fun _ _ => trivial⟩⟩⟩
  have spares : ∀ later ∈ passing, Spares 1 later := by
    rintro later member
    rcases List.mem_cons.mp member with rfl | member
    · exact ⟨nofun, nofun⟩
    · cases List.mem_singleton.mp member
      exact ⟨nofun, by simp [byAdmin]⟩
  exact ⟨_, _, rfl, (told_token_serves ran rfl rfl trivial unique ⟨by decide, by decide⟩ spares rfl
    rfl 1 _).mpr ⟨rfl, rfl, rfl⟩⟩

end FcamGateway.ClientTokens
