import FcamGateway.Interleaving
import FcamGateway.JsonText
import FcamGateway.Session

/-! Idempotency records: a handler claims its key by inserting a record, forwards
the request and stores the response; another request with the key is answered
from the record, refused, or takes an expired or stale record over. -/
namespace FcamGateway.Idempotency

/-- The columns of an `idempotency_records` row besides its id. -/
structure RecordColumns where
  clientId : Nat
  idempotencyKey : String
  requestHash : String
  status : String
  responseStatusCode : Option Int
  responseBody : Option String
  createdAt : Instant
  expiresAt : Option Instant
deriving DecidableEq

/-- The columns of a new record that its request decides. -/
structure Draft where
  clientId : Nat
  idempotencyKey : String
  requestHash : String
  expiresAt : Instant
deriving DecidableEq

/-- The row of a draft that is flushed at the instant given. -/
def Draft.row (draft : Draft) (createdAt : Instant) : RecordColumns :=
  { clientId := draft.clientId, idempotencyKey := draft.idempotencyKey
    requestHash := draft.requestHash, status := "in_progress", responseStatusCode := none
    responseBody := none, createdAt, expiresAt := some draft.expiresAt }

/-- How the insert of a record ends. A conflict is an `IntegrityError`. -/
inductive Inserted where
  | row (id : Nat)
  | conflict
  | failed
deriving DecidableEq

/-- A question a handler puts to the clock, the database or the forwarder. -/
inductive Op where
  | now
  | cleanup (clientId : Nat) (now : Instant)
  | insert (draft : Draft)
  | refresh (id : Nat)
  | lookup (clientId : Nat) (idempotencyKey : String)
  | delete (id : Nat)
  | forward (method upstreamPath : String) (jsonBody : Json)
  | find (id : Nat)
  | complete (id : Nat) (statusCode : Int) (body : String)

/-- The reply to a question. A query that raises replies `none`, and a failed
commit `false`; a failed cleanup is logged and shows in nothing. -/
abbrev Reply : Op → Type
  | .now => Instant
  | .cleanup _ _ => Unit
  | .insert _ => Inserted
  | .refresh _ => Bool
  | .lookup _ _ => Option (Option (Nat × RecordColumns))
  | .delete _ => Bool
  | .forward _ _ _ => Except Exn UpstreamResponse
  | .find _ => Option (Option RecordColumns)
  | .complete _ _ _ => Bool

abbrev Handler := Prog Op Reply Exn

def ask (op : Op) : Handler (Reply op) := Prog.query op

def refuse (error : FcamError) : Handler Value := .raise (.fcam error)

/-- Library code the records are written and read with. -/
structure Codec where
  sha256 : String → String
  dumps : Json → String
  loads : String → Option Json
  b64encode : Bytes → String
  b64decode : String → Option Bytes
  pyStr : Json → String

/-- `_hash_request`. -/
def hashRequest (codec : Codec) (method endpoint : String) (payload : Json) : String :=
  codec.sha256 (String.ofList (JsonText.dumps (.obj [("method", .str method.toUpper),
    ("endpoint", .str endpoint), ("payload", payload)])))

/-- Assignment to a name of a `dict`, which keeps the place of a name it has. -/
def assignName (members : List (String × String)) (item : String × String) :
    List (String × String) :=
  if members.any (·.1 = item.1) then
    members.map fun member => if member.1 = item.1 then item else member
  else members ++ [item]

/-- `{k: v for k, v in items}`. -/
def dictOf (items : List (String × String)) : List (String × String) := items.foldl assignName []

/-- What is stored of a response. -/
def blobMembers (codec : Codec) (response : UpstreamResponse) : List (String × Json) :=
  [("v", .int 1),
    ("headers", .obj ((dictOf response.headers).map fun header => (header.1, .str header.2))),
    ("body_b64", .str (codec.b64encode response.content))]

def blob (codec : Codec) (response : UpstreamResponse) : Json := .obj (blobMembers codec response)

/-- `_serialize_response`. -/
def serializeResponse (codec : Codec) (response : UpstreamResponse) (maxBytes : Int) :
    Except FcamError (Int × String) :=
  if maxBytes < response.content.length then
    .error { statusCode := 413, code := "REQUEST_TOO_LARGE", message := "Response too large to store" }
  else .ok (response.statusCode, codec.dumps (blob codec response))

/-- `value or fallback` for a member of the stored blob. -/
def memberOr (members : List (String × Json)) (name : String) (fallback : Json) : Json :=
  match Json.get? members name with
  | some value => if value.truthy then value else fallback
  | none => fallback

/-- A version mark that equals one. -/
def isOne : Option Json → Bool
  | some (.int value) => value = 1
  | some (.bool value) => value
  | some (.float value) => value.text = ['1', '.', '0']
  | _ => false

/-- `_deserialize_response`; `none` is the error it raises. -/
def deserializeResponse (codec : Codec) (statusCode : Int) (responseBody : String) :
    Option UpstreamResponse :=
  match codec.loads responseBody with
  | some (.obj members) =>
    if !isOne (Json.get? members "v") then none
    else
      match memberOr members "headers" (.obj []), memberOr members "body_b64" (.str "") with
      | .obj headers, .str body =>
        (codec.b64decode body).map fun content =>
          { statusCode, headers := headers.map fun header => (header.1, codec.pyStr header.2), content }
      | _, _ => none
  | _ => none

/-- The library reads back what it wrote of the response. -/
structure Codec.RoundTrips (codec : Codec) (response : UpstreamResponse) : Prop where
  json : codec.loads (codec.dumps (blob codec response)) = some (blob codec response)
  text : codec.dumps (blob codec response) ≠ ""
  body : codec.b64decode (codec.b64encode response.content) = some response.content
  header : ∀ header ∈ response.headers, codec.pyStr (.str header.2) = header.2

theorem mem_dictOf {items : List (String × String)} {item : String × String}
    (member : item ∈ dictOf items) : item ∈ items := by
  suffices all : ∀ members : List (String × String), item ∈ items.foldl assignName members →
      item ∈ members ∨ item ∈ items by
    exact (all [] member).resolve_left List.not_mem_nil
  clear member
  induction items with
  | nil => exact fun members member => .inl member
  | cons first rest ih =>
    intro members member
    rcases ih _ member with assigned | later
    · simp only [assignName] at assigned
      split at assigned
      · obtain ⟨old, listed, rfl⟩ := List.mem_map.mp assigned
        split
        · exact .inr List.mem_cons_self
        · exact .inl listed
      · rcases List.mem_append.mp assigned with listed | new
        · exact .inl listed
        · exact .inr (List.mem_cons.mpr (.inl (List.mem_singleton.mp new)))
    · exact .inr (List.mem_cons_of_mem _ later)

/-- A `dict` of distinct names keeps the items as they are. -/
theorem dictOf_distinct {items : List (String × String)} (distinct : (items.map Prod.fst).Nodup) :
    dictOf items = items := by
  suffices all : ∀ members, ((members ++ items).map Prod.fst).Nodup →
      items.foldl assignName members = members ++ items from all [] distinct
  clear distinct
  induction items with
  | nil => exact fun members _ => (List.append_nil members).symm
  | cons first rest ih =>
    intro members distinct
    have new : members.any (·.1 = first.1) = false := by
      refine List.any_eq_false.mpr fun member listed => ?_
      rw [List.map_append, List.nodup_append] at distinct
      have apart := distinct.2.2 member.1 (List.mem_map_of_mem listed) first.1 List.mem_cons_self
      exact fun same => apart (of_decide_eq_true same)
    have grown : assignName members first = members ++ [first] := by
      rw [assignName, new]
      rfl
    rw [List.foldl_cons, grown, ih _ (by rwa [List.append_cons] at distinct), ← List.append_cons]

/-- A replay rebuilds the response that was stored. -/
theorem deserialize_serialize {codec : Codec} {response : UpstreamResponse} {maxBytes statusCode : Int}
    {text : String} (trips : codec.RoundTrips response)
    (stored : serializeResponse codec response maxBytes = .ok (statusCode, text)) :
    text ≠ "" ∧ deserializeResponse codec statusCode text =
      some { response with headers := dictOf response.headers } := by
  simp only [serializeResponse] at stored
  split at stored
  · cases stored
  cases stored
  refine ⟨trips.text, ?_⟩
  have headers : (dictOf response.headers).map (fun header =>
      (header.1, codec.pyStr (.str header.2))) = dictOf response.headers := by
    refine (List.map_congr_left fun header member => ?_).trans (List.map_id _)
    rw [trips.header header (mem_dictOf member)]
    rfl
  have one : isOne (Json.get? (blobMembers codec response) "v") = true := by
    simp [Json.get?, blobMembers, isOne]
  have named : memberOr (blobMembers codec response) "headers" (.obj []) =
      .obj ((dictOf response.headers).map fun header => (header.1, .str header.2)) := by
    cases found : dictOf response.headers <;>
      simp [memberOr, Json.get?, Json.truthy, blobMembers, found]
  have encoded : memberOr (blobMembers codec response) "body_b64" (.str "") =
      .str (codec.b64encode response.content) := by
    by_cases empty : codec.b64encode response.content = "" <;>
      simp [memberOr, Json.get?, Json.truthy, blobMembers, empty]
  have read : codec.loads (codec.dumps (blob codec response)) =
      some (.obj (blobMembers codec response)) := trips.json
  simp only [deserializeResponse, read, one, named, encoded, trips.body, Bool.not_true,
    Bool.false_eq_true, if_false, Option.map_some, List.map_map, Function.comp_def, headers]

def keyRequired : FcamError :=
  { statusCode := 400, code := "IDEMPOTENCY_KEY_REQUIRED", message := "Idempotency key required" }

def keyConflict : FcamError :=
  { statusCode := 409, code := "IDEMPOTENCY_KEY_CONFLICT", message := "Idempotency key conflict" }

def inProgress : FcamError :=
  { statusCode := 409, code := "IDEMPOTENCY_IN_PROGRESS", message := "Idempotent request in progress"
    retryAfter := some 1 }

def invalidRecord : FcamError :=
  { statusCode := 503, code := "DB_UNAVAILABLE", message := "Invalid idempotency record" }

/-- The grace of an unfinished record, in seconds. -/
def staleAfter (config : IdempotencyConfig) : Int := min (max (config.ttlSeconds / 12) 30) 120

/-- What becomes of a request whose key is taken. -/
inductive Verdict where
  | takeOver
  | conflict
  | replay (statusCode : Int) (body : String)
  | busy
deriving DecidableEq

/-- The decision on the existing record. -/
def verdict (config : IdempotencyConfig) (now : Instant) (requestHash : String)
    (existing : RecordColumns) : Verdict :=
  if existing.expiresAt.any (· < now) then .takeOver
  else if existing.requestHash ≠ requestHash then .conflict
  else
    match existing.responseStatusCode, existing.responseBody with
    | some statusCode, some body =>
      if existing.status = "completed" ∧ body ≠ "" then .replay statusCode body else unfinished
    | _, _ => unfinished
where
  unfinished : Verdict :=
    if existing.status = "in_progress" ∧
        staleAfter config * Instant.second < now - existing.createdAt then .takeOver
    else .busy

/-- The idempotent endpoints. -/
inductive Endpoint where
  | apiCrawl
  | apiAgent
  | v1Crawl
  | v1Agent
  | v2Crawl
  | v2CrawlStart
  | v2Agent
deriving DecidableEq

/-- The logical name that is hashed. -/
def Endpoint.label : Endpoint → String
  | .apiCrawl => "crawl"
  | .apiAgent => "agent"
  | .v1Crawl => "crawl"
  | .v1Agent => "agent"
  | .v2Crawl => "crawl"
  | .v2CrawlStart => "crawl"
  | .v2Agent => "agent"

/-- `_with_query`. -/
def withQuery (query path : String) : String := if query = "" then path else path ++ "?" ++ query

def Endpoint.primaryPath (query : String) : Endpoint → String
  | .apiCrawl => "/v1/crawl"
  | .apiAgent => "/v2/agent"
  | .v1Crawl => withQuery query "/v1/crawl"
  | .v1Agent => withQuery query "/v2/agent"
  | .v2Crawl => withQuery query "/v2/crawl"
  | .v2CrawlStart => withQuery query "/v2/crawl"
  | .v2Agent => withQuery query "/v2/agent"

/-- The path tried after the primary one is not found. -/
def Endpoint.fallbackPath (query : String) : Endpoint → Option String
  | .apiCrawl => none
  | .apiAgent => some "/v1/agent"
  | .v1Crawl => none
  | .v1Agent => some (withQuery query "/v1/agent")
  | .v2Crawl => some (withQuery query "/v2/crawl/start")
  | .v2CrawlStart => some (withQuery query "/v2/crawl/start")
  | .v2Agent => none

/-- A POST request of a client to one of the endpoints. -/
structure Incoming where
  clientId : Nat
  idempotencyKey : Option String
  endpoint : Endpoint
  query : String
  payload : Json

/-- `e.strip()` of the configured names that are not blank. -/
def requiredOn (config : IdempotencyConfig) : List String :=
  (config.requireOn.map PyText.strip).filter (· ≠ "")

/-- The key a request is claimed under, if it is. -/
def Incoming.claimedKey (request : Incoming) (config : IdempotencyConfig) : Option String :=
  if config.enabled then request.idempotencyKey.filter (· ≠ "") else none

def Incoming.hash (request : Incoming) (codec : Codec) : String :=
  hashRequest codec "POST" request.endpoint.label request.payload

/-- `start_or_replay`: the id of the record it inserted, or the response it
replays. The count is how often it may still call itself. -/
def startOrReplay (config : IdempotencyConfig) (codec : Codec) (request : Incoming) :
    Nat → Handler (Option Nat × Option UpstreamResponse)
  | 0 => .raise .other
  | depth + 1 => do
    if !config.enabled then return (none, none)
    else
      match request.claimedKey config with
      | none =>
        if request.endpoint.label ∈ requiredOn config then refuse keyRequired
        else return (none, none)
      | some key =>
        let now ← ask .now
        ask (.cleanup request.clientId now)
        match now.addSeconds? (max config.ttlSeconds 1) with
        | none => .raise .other
        | some expiresAt =>
          let draft : Draft :=
            { clientId := request.clientId, idempotencyKey := key, requestHash := request.hash codec
              expiresAt }
          match ← ask (.insert draft) with
          | .failed => refuse dbUnavailable
          | .row id =>
            if ← ask (.refresh id) then return (some id, none) else refuse dbUnavailable
          | .conflict =>
            match ← ask (.lookup request.clientId key) with
            | none => .raise .other
            | some none => refuse dbUnavailable
            | some (some (id, existing)) =>
              match verdict config now (request.hash codec) existing with
              | .takeOver =>
                if ← ask (.delete id) then startOrReplay config codec request depth
                else refuse dbUnavailable
              | .conflict => refuse keyConflict
              | .replay statusCode body =>
                match deserializeResponse codec statusCode body with
                | some response => return (none, some response)
                | none => refuse invalidRecord
              | .busy => refuse inProgress

/-- `complete`. Every failure is logged and swallowed. -/
def complete (config : IdempotencyConfig) (codec : Codec) (ctx : Option Nat)
    (response : UpstreamResponse) : Handler Unit := do
  match ctx with
  | none => return
  | some id =>
    if !config.enabled then return
    else
      match ← ask (.find id) with
      | none => return
      | some none => return
      | some (some _) =>
        match serializeResponse codec response (max config.maxResponseBytes 1) with
        | .error _ => return
        | .ok (statusCode, body) =>
          let _ ← ask (.complete id statusCode body)
          return

def forwardTo (path : String) (payload : Json) : Handler UpstreamResponse := do
  match ← ask (.forward "POST" path payload) with
  | .error error => .raise error
  | .ok response => return response

/-- The forward of a handler, with its fallback. -/
def forwardRequest (request : Incoming) : Handler UpstreamResponse := do
  let response ← forwardTo (request.endpoint.primaryPath request.query) request.payload
  match request.endpoint.fallbackPath request.query with
  | none => return response
  | some path =>
    if response.statusCode = 404 ∨ response.statusCode = 405 then forwardTo path request.payload
    else return response

/-- The handler of an idempotent endpoint. -/
def handle (config : IdempotencyConfig) (codec : Codec) (depth : Nat) (request : Incoming) :
    Handler UpstreamResponse := do
  match ← startOrReplay config codec request depth with
  | (_, some response) => return response
  | (ctx, none) =>
    let response ← forwardRequest request
    complete config codec ctx response
    return response

end FcamGateway.Idempotency
