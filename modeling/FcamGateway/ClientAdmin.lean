import FcamGateway.Models
import FcamGateway.Runs

/-! The administration of clients. Deletion is soft: a deleted client keeps its row,
with `status` "deleted" and `is_active` false. Most operations leave such a row as it
is; the batch endpoint does not look. -/
namespace FcamGateway.ClientAdmin

open Runs

/-- A `clients` row as the administration reads and writes it. -/
structure ClientRow where
  name : String
  tokenHash : String
  tokenCiphertext : Option Bytes
  columns : ClientColumns
deriving DecidableEq

abbrev Clients := Table ClientRow

/-- The cryptography of client tokens and the character classes of their text. -/
structure Vault where
  deriveMasterKeyBytes : String → Bytes
  hmacSha256Hex : Bytes → String → String
  encryptClientToken : Bytes → Bytes → String → Bytes
  isLower : Char → Bool
  isUpper : Char → Bool
  isDigit : Char → Bool
  isAlnum : Char → Bool
  lower : String → String

structure CreateClientRequest where
  name : String
  dailyQuota : Option Int := none
  rateLimitPerMin : Int := 60
  maxConcurrent : Int := 10
  maxRetries : Int := 3
  isActive : Bool := true
  token : Option String := none

/-- The fields that were set; a field may be set to null. -/
structure UpdateClientRequest where
  dailyQuota : Option (Option Int) := none
  rateLimitPerMin : Option (Option Int) := none
  maxConcurrent : Option (Option Int) := none
  maxRetries : Option (Option Int) := none
  isActive : Option (Option Bool) := none

inductive BatchAction where
  | enable
  | disable
  | delete
deriving DecidableEq

def notReady : FcamError :=
  { statusCode := 503, code := "NOT_READY", message := "Master key not configured" }

def notFound : FcamError := { statusCode := 404, code := "NOT_FOUND", message := "Not found" }

def invalidRequest (message : String) : FcamError :=
  { statusCode := 400, code := "VALIDATION_ERROR", message }

def unauthorized : FcamError :=
  { statusCode := 401, code := "CLIENT_UNAUTHORIZED", message := "Missing or invalid client token" }

def clientDisabled : FcamError :=
  { statusCode := 403, code := "CLIENT_DISABLED", message := "Client disabled" }

/-- `validate_client_token_complexity`: the message of its error. -/
def tokenComplexity (vault : Vault) (token : String) : Option String :=
  let text := (PyText.strip token).toList
  let classes := [text.any vault.isLower, text.any vault.isUpper, text.any vault.isDigit,
    text.any (!vault.isAlnum ·)].count true
  let low := vault.lower (PyText.strip token)
  if text.length < 24 then some "令牌长度至少 24 个字符"
  else if 256 < text.length then some "令牌长度不能超过 256 个字符"
  else if classes < 3 then some "令牌需至少包含三类字符（大写/小写/数字/特殊符号）"
  else if low ∈ ["password", "admin", "fcam_client_test", "fcam_client_aaaaaaaaaaaaaaaaaaaa"] then
    some "令牌过于简单"
  else none

/-- What a handler draws or meets besides its request: a generated token and a nonce,
the day, whether its transaction commits and whether the row is read again then. -/
structure Circumstances where
  generated : String
  nonce : Bytes
  today : Int
  commits : Bool
  refreshes : Bool

/-- How a handler ends and the clients afterwards. -/
abbrev Handled (Value : Type) := Except FcamError Value × Clients

/-- `list_clients`. -/
def listClients (clients : Clients) : List (Nat × ClientRow) :=
  (clients.entries.filter fun entry => entry.2.columns.status ≠ "deleted").reverse

/-- `create_client`. -/
def createClient (vault : Vault) (masterKey : Option String) (payload : CreateClientRequest)
    (met : Circumstances) (clients : Clients) : Handled (Nat × String) :=
  match masterKey with
  | none => (.error notReady, clients)
  | some masterKey =>
    let key := vault.deriveMasterKeyBytes masterKey
    let rawToken := PyText.strip (payload.token.getD "")
    match if rawToken = "" then none else tokenComplexity vault rawToken with
    | some message => (.error (invalidRequest message), clients)
    | none =>
      let token := if rawToken = "" then met.generated else rawToken
      let row : ClientRow :=
        { name := payload.name, tokenHash := vault.hmacSha256Hex key token
          tokenCiphertext := some (vault.encryptClientToken key met.nonce token)
          columns :=
            { isActive := payload.isActive, dailyQuota := payload.dailyQuota, dailyUsage := 0
              quotaResetAt := some met.today, rateLimitPerMin := payload.rateLimitPerMin
              maxConcurrent := payload.maxConcurrent, maxRetries := payload.maxRetries
              status := if payload.isActive then "active" else "disabled" } }
      if clients.entries.any fun entry =>
          entry.2.name = row.name || entry.2.tokenHash = row.tokenHash then
        (.error (invalidRequest "Client already exists"), clients)
      else
        match met.commits, clients.insert? clients.nextId row with
        | true, some next =>
          (if met.refreshes then .ok (clients.nextId, token) else .error dbUnavailable, next)
        | _, _ => (.error dbUnavailable, clients)

/-- A column that was set. Null in a column that holds no null makes the flush fail. -/
def setColumn (given : Option (Option Value)) (current : Value) : Option Value :=
  match given with
  | none => some current
  | some value => value

/-- The columns `update_client` writes, unless the flush fails. -/
def updated (payload : UpdateClientRequest) (columns : ClientColumns) : Option ClientColumns := do
  let rateLimitPerMin ← setColumn payload.rateLimitPerMin columns.rateLimitPerMin
  let maxConcurrent ← setColumn payload.maxConcurrent columns.maxConcurrent
  let written : ClientColumns :=
    { columns with
      dailyQuota := payload.dailyQuota.getD columns.dailyQuota, rateLimitPerMin, maxConcurrent
      maxRetries := (payload.maxRetries.getD none).getD columns.maxRetries }
  match payload.isActive with
  | none => return written
  | some value =>
    let active := value.getD false
    return { written with
      isActive := active, status := if active then "active" else "disabled" }

/-- `update_client`. -/
def updateClient (clientId : Nat) (payload : UpdateClientRequest) (met : Circumstances)
    (clients : Clients) : Handled ClientRow :=
  match clients.get? clientId with
  | none => (.error notFound, clients)
  | some row =>
    if row.columns.status = "deleted" then (.error notFound, clients)
    else
      match met.commits, updated payload row.columns with
      | true, some columns =>
        (if met.refreshes then .ok { row with columns } else .error dbUnavailable,
          clients.modify clientId fun row => { row with columns })
      | _, _ => (.error dbUnavailable, clients)

def deleted (columns : ClientColumns) : ClientColumns :=
  { columns with isActive := false, status := "deleted" }

/-- `delete_client`. -/
def deleteClient (clientId : Nat) (met : Circumstances) (clients : Clients) : Handled Unit :=
  match clients.get? clientId with
  | none => (.error notFound, clients)
  | some _ =>
    if met.commits then
      (.ok (), clients.modify clientId fun row => { row with columns := deleted row.columns })
    else (.error dbUnavailable, clients)

/-- `rotate_client_token`. -/
def rotateClientToken (vault : Vault) (masterKey : Option String) (clientId : Nat)
    (met : Circumstances) (clients : Clients) : Handled (Nat × String) :=
  match masterKey with
  | none => (.error notReady, clients)
  | some masterKey =>
    match clients.get? clientId with
    | none => (.error notFound, clients)
    | some _ =>
      let key := vault.deriveMasterKeyBytes masterKey
      if met.commits then
        (.ok (clientId, met.generated), clients.modify clientId fun row =>
          { row with
            tokenHash := vault.hmacSha256Hex key met.generated
            tokenCiphertext := some (vault.encryptClientToken key met.nonce met.generated) })
      else (.error dbUnavailable, clients)

/-- `apply_batch_action_to_client`. -/
def applyBatchAction (action : BatchAction) (columns : ClientColumns) : ClientColumns :=
  match action with
  | .enable => { columns with isActive := true, status := "active" }
  | .disable => { columns with isActive := false, status := "disabled" }
  | .delete => deleted columns

/-- `deduplicate_client_ids`: the first of each id, in order. -/
def deduplicateClientIds (ids : List Nat) : List Nat :=
  ids.foldl (fun seen id => if id ∈ seen then seen else seen ++ [id]) []

/-- `batch_update_clients`: how many were changed, and the ids that are not there. -/
def batchUpdateClients (clientIds : List Nat) (action : BatchAction) (met : Circumstances)
    (clients : Clients) : Handled (Nat × List Nat) :=
  let unique := deduplicateClientIds clientIds
  let found := unique.filter (· ∈ clients.ids)
  let missing := unique.filter (· ∉ clients.ids)
  if met.commits then
    (.ok (found.length, missing), found.foldl (fun clients id => clients.modify id fun row =>
      { row with columns := applyBatchAction action row.columns }) clients)
  else (.error dbUnavailable, clients)

/-- `_bearer_token`. -/
def bearerToken (authorization : Option String) : Option String :=
  match authorization with
  | none => none
  | some text =>
    match text.toList.span (· != ' ') with
    | (scheme, _ :: rest) =>
      if PyText.lower (String.ofList scheme) ≠ "bearer" then none
      else
        let token := PyText.strip (String.ofList rest)
        if token = "" then none else some token
    | (_, []) => none

/-- `require_client`; `finds` says whether its query succeeds. -/
def requireClient (vault : Vault) (masterKey authorization : Option String) (finds : Bool)
    (clients : Clients) : Except FcamError (Nat × ClientRow) :=
  match masterKey with
  | none => .error notReady
  | some masterKey =>
    match bearerToken authorization with
    | none => .error unauthorized
    | some token =>
      let tokenHash := vault.hmacSha256Hex (vault.deriveMasterKeyBytes masterKey) token
      if !finds then .error dbUnavailable
      else
        match clients.entries.filter fun entry => entry.2.tokenHash = tokenHash with
        | [] => .error unauthorized
        | [entry] => if entry.2.columns.isActive then .ok entry else .error clientDisabled
        | _ => .error dbUnavailable

/-- An operation on clients other than the purge. -/
inductive AdminOp where
  | create (payload : CreateClientRequest)
  | update (clientId : Nat) (payload : UpdateClientRequest)
  | delete (clientId : Nat)
  | rotate (clientId : Nat)
  | batch (clientIds : List Nat) (action : BatchAction)

def perform (vault : Vault) (masterKey : Option String) (clients : Clients)
    (taken : AdminOp × Circumstances) : Clients :=
  match taken with
  | (.create payload, met) => (createClient vault masterKey payload met clients).2
  | (.update clientId payload, met) => (updateClient clientId payload met clients).2
  | (.delete clientId, met) => (deleteClient clientId met clients).2
  | (.rotate clientId, met) => (rotateClientToken vault masterKey clientId met clients).2
  | (.batch clientIds action, met) => (batchUpdateClients clientIds action met clients).2

/-- Every operation can be asked for at any time. -/
def step (vault : Vault) (masterKey : Option String) (clients : Clients)
    (taken : AdminOp × Circumstances) : Option Clients :=
  some (perform vault masterKey clients taken)

/-- What an operation does to the columns of a client that is there. -/
inductive Changed (id : Nat) (columns : ClientColumns) :
    AdminOp × Circumstances → ClientColumns → Prop where
  | same : Changed id columns taken columns
  | updated : columns.status ≠ "deleted" → updated payload columns = some next →
      Changed id columns (.update id payload, met) next
  | deleted : Changed id columns (.delete id, met) (deleted columns)
  | batch : met.commits → id ∈ clientIds →
      Changed id columns (.batch clientIds action, met) (applyBatchAction action columns)

/-- The rows of a committed batch: those found, one after the other. -/
def batched (action : BatchAction) (ids : List Nat) (clients : Clients) : Clients :=
  ids.foldl (fun clients id => clients.modify id fun row =>
    { row with columns := applyBatchAction action row.columns }) clients

/-- What an operation does to the table. -/
inductive Move (clients : Clients) : AdminOp × Circumstances → Clients → Prop where
  | stays : Move clients taken clients
  | inserted : row.columns.status ≠ "deleted" → clients.insert? clients.nextId row = some next →
      Move clients taken next
  | rewritten {touched : Nat} : (∀ row, clients.get? touched = some row →
      Changed touched row.columns taken (change row).columns) →
      Move clients taken (clients.modify touched change)
  | batch : met.commits = true →
      Move clients (.batch clientIds action, met) (batched action
        ((deduplicateClientIds clientIds).filter (· ∈ clients.ids)) clients)

variable {vault : Vault} {masterKey : Option String} {clients start middle last : Clients} {id : Nat}
  {row after : ClientRow} {columns : ClientColumns} {taken : AdminOp × Circumstances}
  {met : Circumstances} {action : BatchAction}

/-- Deduplication keeps the ids that are listed. -/
theorem mem_deduplicate (ids : List Nat) : id ∈ deduplicateClientIds ids ↔ id ∈ ids := by
  suffices all : ∀ seen : List Nat,
      id ∈ ids.foldl (fun seen id => if id ∈ seen then seen else seen ++ [id]) seen ↔
        id ∈ seen ∨ id ∈ ids by
    simpa [deduplicateClientIds] using all []
  induction ids with
  | nil => simp
  | cons first rest ih =>
    intro seen
    rw [List.foldl_cons, ih]
    by_cases listed : first ∈ seen
    · rw [if_pos listed, List.mem_cons]
      constructor
      · rintro (old | later)
        · exact .inl old
        · exact .inr (.inr later)
      · rintro (old | rfl | later)
        · exact .inl old
        · exact .inl listed
        · exact .inr later
    · rw [if_neg listed, List.mem_append, List.mem_singleton, List.mem_cons, or_assoc]

theorem applied_twice (action : BatchAction) (columns : ClientColumns) :
    applyBatchAction action (applyBatchAction action columns) = applyBatchAction action columns := by
  cases action <;> rfl

theorem applied_inactive (action : BatchAction) (columns : ClientColumns)
    (gone : (applyBatchAction action columns).status = "deleted") :
    (applyBatchAction action columns).isActive = false := by
  cases action
  · simp [applyBatchAction] at gone
  · rfl
  · rfl

/-- A batch changes the rows it lists, and those alone. -/
theorem get_batched (ids : List Nat) (clients : Clients) :
    (batched action ids clients).get? id = (clients.get? id).map fun row =>
      if id ∈ ids then { row with columns := applyBatchAction action row.columns } else row := by
  induction ids generalizing clients with
  | nil => simp [batched]
  | cons first rest ih =>
    rw [batched, List.foldl_cons, ← batched, ih, Table.get_modify]
    by_cases same : id = first
    · subst same
      rw [if_pos rfl, Option.map_map]
      congr 1
      funext row
      by_cases later : id ∈ rest <;> simp [later, applied_twice]
    · simp [same]

theorem create_move (payload : CreateClientRequest) :
    Move clients (.create payload, met) (createClient vault masterKey payload met clients).2 := by
  have live : ∀ row : ClientRow, row.columns.status = (if payload.isActive then "active"
      else "disabled") → row.columns.status ≠ "deleted" := by
    intro row status
    by_cases active : payload.isActive = true <;> simp [status, active]
  simp only [createClient]
  repeat' split
  all_goals first | exact .stays | skip
  all_goals exact .inserted (live _ rfl) (by assumption)

theorem update_move (clientId : Nat) (payload : UpdateClientRequest) :
    Move clients (.update clientId payload, met) (updateClient clientId payload met clients).2 := by
  simp only [updateClient]
  split
  · exact .stays
  · rename_i row there
    by_cases gone : row.columns.status = "deleted"
    · rw [if_pos gone]
      exact .stays
    · rw [if_neg gone]
      split
      · rename_i columns _ written
        dsimp only
        apply Move.rewritten
        intro found again
        obtain rfl : row = found := Option.some.inj (there.symm.trans again)
        exact .updated gone written
      · exact .stays

theorem delete_move (clientId : Nat) :
    Move clients (.delete clientId, met) (deleteClient clientId met clients).2 := by
  simp only [deleteClient]
  split
  · exact .stays
  · split
    · dsimp only
      apply Move.rewritten
      intro found _
      exact .deleted
    · exact .stays

theorem rotate_move (clientId : Nat) : Move clients (.rotate clientId, met)
    (rotateClientToken vault masterKey clientId met clients).2 := by
  simp only [rotateClientToken]
  split
  · exact .stays
  · split
    · exact .stays
    · split
      · dsimp only
        apply Move.rewritten
        intro found _
        exact .same
      · exact .stays

/-- What a committed batch leaves of a client that is there. -/
theorem perform_batch {clientIds : List Nat} (commits : met.commits = true)
    (present : clients.get? id = some row) (listed : id ∈ clientIds) :
    (perform vault masterKey clients (.batch clientIds action, met)).get? id =
      some { row with columns := applyBatchAction action row.columns } := by
  have there : id ∈ clients.ids := (Table.get_some.mp present).1
  simp only [perform, batchUpdateClients, if_pos commits]
  rw [← batched, get_batched, present, Option.map_some, if_pos]
  exact List.mem_filter.mpr ⟨(mem_deduplicate _).mpr listed, by simpa using there⟩

theorem perform_move (vault : Vault) (masterKey : Option String) (clients : Clients)
    (taken : AdminOp × Circumstances) :
    Move clients taken (perform vault masterKey clients taken) := by
  obtain ⟨op, met⟩ := taken
  cases op with
  | create payload => exact create_move payload
  | update clientId payload => exact update_move clientId payload
  | delete clientId => exact delete_move clientId
  | rotate clientId => exact rotate_move clientId
  | batch clientIds action =>
    simp only [perform, batchUpdateClients]
    by_cases commits : met.commits = true
    · rw [if_pos commits]
      exact .batch commits
    · rw [if_neg commits]
      exact .stays

/-- A row stays, changed as the operation says. -/
theorem Move.kept {next : Clients} (move : Move clients taken next)
    (present : clients.get? id = some row) :
    ∃ after, next.get? id = some after ∧ Changed id row.columns taken after.columns := by
  cases move with
  | stays => exact ⟨row, present, .same⟩
  | inserted _ added =>
    have other : id ≠ clients.nextId := by
      have above := (Table.insert_some added).1 id (Table.get_some.mp present).1
      omega
    exact ⟨row, by rw [Table.get_insert added, if_neg other, present], .same⟩
  | @rewritten _ change touched changed =>
    rw [Table.get_modify]
    by_cases same : id = touched
    · subst same
      rw [if_pos rfl, present]
      exact ⟨change row, rfl, changed row present⟩
    · rw [if_neg same]
      exact ⟨row, present, .same⟩
  | batch commits =>
    rw [get_batched, present]
    refine ⟨_, rfl, ?_⟩
    split
    · rename_i listed
      exact .batch commits ((mem_deduplicate _).mp (List.mem_filter.mp listed).1)
    · exact .same

/-- A row that is new is not deleted. -/
theorem Move.fresh {next : Clients} (move : Move clients taken next) (absent : clients.get? id = none)
    (present : next.get? id = some after) : after.columns.status ≠ "deleted" := by
  cases move with
  | stays => rw [absent] at present; cases present
  | inserted live added =>
    rw [Table.get_insert added] at present
    split at present
    · cases present
      exact live
    · rw [absent] at present; cases present
  | rewritten _ =>
    rw [Table.get_modify, absent] at present
    split at present <;> cases present
  | batch _ => rw [get_batched, absent] at present; cases present

/-- A deleted client is not active either. -/
def Coupled (clients : Clients) : Prop :=
  ∀ id row, clients.get? id = some row → row.columns.status = "deleted" →
    row.columns.isActive = false

theorem update_coupled {payload : UpdateClientRequest} {next : ClientColumns}
    (live : columns.status ≠ "deleted") (written : updated payload columns = some next) :
    next.status ≠ "deleted" := by
  simp only [updated, Option.bind_eq_bind, Option.bind_eq_some_iff] at written
  obtain ⟨rateLimitPerMin, _, maxConcurrent, _, written⟩ := written
  split at written
  · cases written
    exact live
  · rename_i value _
    cases written
    cases value.getD false <;> simp

/-- No operation activates a client it leaves deleted. -/
theorem perform_coupled (taken : AdminOp × Circumstances) (held : Coupled clients) :
    Coupled (perform vault masterKey clients taken) := by
  intro id after present gone
  have move := perform_move vault masterKey clients taken
  cases before : clients.get? id with
  | none => exact absurd gone (move.fresh before present)
  | some row =>
    obtain ⟨found, again, changed⟩ := move.kept before
    obtain rfl : found = after := Option.some.inj (again.symm.trans present)
    generalize found.columns = next at changed gone ⊢
    cases changed with
    | same => exact held id row before gone
    | updated live written => exact absurd gone (update_coupled live written)
    | deleted => rfl
    | batch _ _ => exact applied_inactive _ _ gone

/-- The operation does not bring the client back: it is no committed batch that enables
or disables the client. -/
def Spares (id : Nat) (_ : Clients) (taken : AdminOp × Circumstances) : Prop :=
  ∀ clientIds action met, taken = (.batch clientIds action, met) → met.commits = true →
    id ∈ clientIds → action = .delete

def Deleted (id : Nat) (clients : Clients) : Prop :=
  ∃ row, clients.get? id = some row ∧ row.columns.status = "deleted"

/-- No token authenticates as the client and no list shows it. -/
structure Gone (vault : Vault) (id : Nat) (clients : Clients) : Prop where
  refused : ∀ masterKey authorization finds row,
    requireClient vault masterKey authorization finds clients ≠ .ok (id, row)
  unlisted : ∀ row, (id, row) ∉ listClients clients

theorem mem_listClients : (id, row) ∈ listClients clients ↔
    clients.get? id = some row ∧ row.columns.status ≠ "deleted" := by
  simp [listClients, Table.mem_entries]

/-- Who is let in is there and active. -/
theorem requireClient_ok {authorization : Option String} {finds : Bool}
    (passed : requireClient vault masterKey authorization finds clients = .ok (id, row)) :
    clients.get? id = some row ∧ row.columns.isActive = true := by
  simp only [requireClient] at passed
  split at passed
  · cases passed
  · split at passed
    · cases passed
    · split at passed
      · cases passed
      · split at passed
        · cases passed
        · rename_i entry only
          have member : entry ∈ clients.entries :=
            List.mem_of_mem_filter (only ▸ List.mem_singleton_self entry)
          split at passed
          · rename_i active
            cases passed
            exact ⟨Table.mem_entries.mp member, active⟩
          · cases passed
        · cases passed

theorem Deleted.gone (coupled : Coupled clients) (deleted : Deleted id clients) :
    Gone vault id clients := by
  obtain ⟨row, present, status⟩ := deleted
  have only : ∀ other, clients.get? id = some other → other = row :=
    fun other found => Option.some.inj (found.symm.trans present)
  constructor
  · intro masterKey authorization finds other passed
    obtain ⟨found, active⟩ := requireClient_ok passed
    obtain rfl := only other found
    rw [coupled id other present status] at active
    cases active
  · intro other listed
    obtain ⟨found, live⟩ := mem_listClients.mp listed
    obtain rfl := only other found
    exact live status

/-- A client that is not shown although its row is there is deleted. -/
theorem Gone.deleted (gone : Gone vault id clients) (present : clients.get? id = some row) :
    row.columns.status = "deleted" := by
  by_contra live
  exact gone.unlisted row (mem_listClients.mpr ⟨present, live⟩)

/-- A deleted client is deleted after an operation exactly when the operation spares it. -/
theorem deleted_iff (vault : Vault) (masterKey : Option String)
    (taken : AdminOp × Circumstances) (deleted : Deleted id clients) :
    Deleted id (perform vault masterKey clients taken) ↔ Spares id clients taken := by
  obtain ⟨row, present, status⟩ := deleted
  have move := perform_move vault masterKey clients taken
  constructor
  · rintro ⟨after, found, again⟩ clientIds action met rfl commits listed
    rw [perform_batch commits present listed] at found
    cases found
    cases action with
    | enable => simp [applyBatchAction] at again
    | disable => simp [applyBatchAction] at again
    | delete => rfl
  · intro spares
    obtain ⟨after, found, changed⟩ := move.kept present
    refine ⟨after, found, ?_⟩
    generalize after.columns = next at changed ⊢
    cases changed with
    | same => exact status
    | updated live _ => exact absurd status live
    | deleted => rfl
    | batch commits listed =>
      obtain rfl := spares _ _ _ rfl commits listed
      rfl

/-- A client that is deleted stays out of reach over a run of operations exactly when each
of them spares it. -/
theorem stays_deleted_iff (front back : List (AdminOp × Circumstances))
    (ran : run (step vault masterKey) start front = some middle)
    (initial : start = Table.empty filler) (deleted : Deleted id middle) :
    (∀ upto last, upto <+: back → run (step vault masterKey) middle upto = some last →
      Gone vault id last) ↔ Meets (step vault masterKey) (Spares id) middle back := by
  have coupled : Coupled middle := by
    refine run_preserves ?_ front ?_ ran
    · intro clients taken next held stepped
      cases stepped
      exact perform_coupled taken held
    · subst initial
      intro id row present
      cases Table.get_some.mp present |>.1
  clear ran initial
  induction back generalizing middle with
  | nil =>
    refine ⟨fun _ => trivial, fun _ upto last early ran => ?_⟩
    obtain rfl := List.prefix_nil.mp early
    cases ran
    exact deleted.gone coupled
  | cons taken back ih =>
    constructor
    · intro gone
      have next : Deleted id (perform vault masterKey middle taken) := by
        obtain ⟨row, present, status⟩ := deleted
        obtain ⟨after, found, _⟩ := (perform_move vault masterKey middle taken).kept present
        exact ⟨after, found, (gone [taken] _ ⟨back, rfl⟩ rfl).deleted found⟩
      refine ⟨(deleted_iff vault masterKey taken deleted).mp next, fun _ stepped => ?_⟩
      cases stepped
      apply (ih next (perform_coupled taken coupled)).mp
      intro upto last early ran
      exact gone (taken :: upto) last (by simpa using early) ran
    · rintro ⟨spares, met⟩ upto last early ran
      cases upto with
      | nil =>
        cases ran
        exact deleted.gone coupled
      | cons first upto =>
        obtain ⟨rfl, shorter⟩ := List.cons_prefix_cons.mp early
        obtain ⟨_, stepped, ran⟩ := run_cons ran
        cases stepped
        have next := (deleted_iff vault masterKey first deleted).mpr spares
        exact (ih next (perform_coupled first coupled)).mpr (met _ rfl) upto last shorter ran

/-- Cryptography that hides nothing. -/
def plainVault : Vault where
  deriveMasterKeyBytes _ := []
  hmacSha256Hex _ token := token
  encryptClientToken _ _ token := token.toUTF8.toList
  isLower char := 'a' ≤ char ∧ char ≤ 'z'
  isUpper char := 'A' ≤ char ∧ char ≤ 'Z'
  isDigit char := '0' ≤ char ∧ char ≤ '9'
  isAlnum char := ('a' ≤ char ∧ char ≤ 'z') ∨ ('A' ≤ char ∧ char ≤ 'Z') ∨ ('0' ≤ char ∧ char ≤ '9')
  lower := PyText.lower

def noClients : Clients := Table.empty ⟨"", "", none, {}⟩

def smooth : Circumstances :=
  { generated := "fcam_client_a", nonce := [], today := 0, commits := true, refreshes := true }

def createdThenDeleted : List (AdminOp × Circumstances) :=
  [(.create { name := "tenant" }, smooth), (.delete 1, smooth)]

def afterDeletion : Clients :=
  createdThenDeleted.foldl (perform plainVault (some "master")) noClients

theorem rotated_and_deleted_again :
    (∀ upto last, upto <+: [(.rotate 1, smooth), (.batch [1] .delete, smooth)] →
      run (step plainVault (some "master")) afterDeletion upto = some last →
      Gone plainVault 1 last) ↔
    Meets (step plainVault (some "master")) (Spares 1) afterDeletion
      [(.rotate 1, smooth), (.batch [1] .delete, smooth)] :=
  stays_deleted_iff createdThenDeleted _ (rfl : run _ noClients _ = _) rfl ⟨_, rfl, rfl⟩

/-- A deleted client that a batch enables authenticates again and is listed again. -/
theorem batch_revives_deleted :
    ∃ back last row, Deleted 1 afterDeletion ∧
      run (step plainVault (some "master")) noClients createdThenDeleted = some afterDeletion ∧
      run (step plainVault (some "master")) afterDeletion back = some last ∧
      requireClient plainVault (some "master") (some "Bearer fcam_client_a") true last =
        .ok (1, row) ∧ (1, row) ∈ listClients last := by
  refine ⟨[(.batch [1] .enable, smooth)], _, _, ⟨_, rfl, rfl⟩, rfl, rfl, rfl, ?_⟩
  exact mem_listClients.mpr ⟨rfl, by decide⟩

end FcamGateway.ClientAdmin
