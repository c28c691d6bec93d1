import FcamGateway.LogQueries

/-! The row that a proxied request leaves in the request log: where each of its
sized columns comes from, and when the row fits the sizes that its table
declares. -/
namespace FcamGateway.RequestLogging
open LogQueries

/-- The names that the data-plane handlers give their endpoint before anything
in them can fail. -/
def handlerEndpoints : List String :=
  ["agent", "batch", "browser", "crawl", "crawl_active", "crawl_params_preview", "crawl_status",
   "exa_answer", "exa_contents", "exa_findSimilar", "exa_search", "extract", "map", "scrape",
   "search", "team_credit_usage", "team_credit_usage_historical", "team_queue_status",
   "team_token_usage", "team_token_usage_historical"]

abbrev HandlerEndpoint := { name : String // name ∈ handlerEndpoints }

/-- The parts of a request that its log row is made from. -/
structure Request where
  path : String
  method : String
  headers : List (String × String)

/-- `request.state` after the handlers. The details are the text that
`_dump_error_details` made of them. -/
structure RequestState where
  endpoint : Option HandlerEndpoint := none
  requestId : Option String := none
  clientId : Option Nat := none
  apiKeyId : Option Nat := none
  retryCount : Option Int := none
  errorCode : Option String := none
  errorDetails : Option String := none

/-- `request.headers.get`: the first header of the name, which the server has in
lower case. -/
def requestHeader (headers : List (String × String)) (name : String) : Option String :=
  (headers.find? (·.1 = name)).map Prod.snd

def requestIdChar (c : Char) : Bool := c.isAlphanum || c = '_' || c = '-'

/-- `_is_valid_request_id`. -/
def isValidRequestId (value : String) : Bool :=
  8 ≤ value.length && value.length ≤ 64 && value.toList.all requestIdChar

def hexDigits : Nat → Nat → List Char
  | 0, _ => []
  | width + 1, value => hexDigits width (value / 16) ++ [Nat.digitChar (value % 16)]

/-- `_new_request_id`, for the number drawn. -/
def newRequestId (uuid : BitVec 128) : String := String.ofList (hexDigits 32 uuid.toNat)

/-- The id `dispatch` gives a request. -/
def chosenRequestId (headers : List (String × String)) (uuid : BitVec 128) : String :=
  match requestHeader headers "x-request-id" with
  | some incoming =>
    if incoming ≠ "" ∧ isValidRequestId incoming then incoming else newRequestId uuid
  | none => newRequestId uuid

def startsWith (path start : String) : Bool := start.toList.isPrefixOf path.toList

/-- `str.strip("/")`. -/
def stripSlashes (text : List Char) : List Char :=
  ((text.dropWhile (· = '/')).reverse.dropWhile (· = '/')).reverse

def proxyPrefixes : List String := ["/api/", "/v1/", "/v2/", "/exa/"]

/-- `path[len(prefix):].strip("/")`. -/
def suffixAfter (start path : String) : List Char := stripSlashes (path.toList.drop start.length)

/-- `suffix.split("/", 1)[0]`. -/
def firstSegment (start path : String) : List Char := (suffixAfter start path).takeWhile (· ≠ '/')

/-- `_infer_api_endpoint`. -/
def inferApiEndpoint (path : String) : Option String :=
  (proxyPrefixes.find? (startsWith path)).map fun start =>
    let first := firstSegment start path
    if suffixAfter start path = [] then "unknown"
    else if start = "/exa/" then
      if first = [] then "unknown" else "exa_" ++ String.ofList (first.take 32)
    else if first = "crawl".toList then
      if '/' ∈ suffixAfter start path then "crawl_status" else "crawl"
    else if first = [] then "unknown" else String.ofList (first.take 32)

/-- `_persist_request_log`, where the database is configured: the row it adds. -/
def persistRequestLog (request : Request) (state : RequestState) (statusCode : Option Int)
    (responseTimeMs : Int) (now : Instant) : Option RequestLog :=
  ((state.endpoint.map Subtype.val).or (inferApiEndpoint request.path)).map fun endpoint =>
    { requestId := state.requestId.getD "-"
      clientId := state.clientId
      apiKeyId := state.apiKeyId
      endpoint
      method := request.method
      statusCode
      responseTimeMs := some responseTimeMs
      success := statusCode.map fun code => 200 ≤ code ∧ code < 300
      retryCount := state.retryCount.getD 0
      errorMessage := state.errorCode
      errorDetails := state.errorDetails
      idempotencyKey := requestHeader request.headers "x-idempotency-key"
      createdAt := now }

/-- `RequestIdMiddleware.dispatch`: the row of a request whose handlers left the
given state. -/
def dispatchRow (request : Request) (uuid : BitVec 128) (left : RequestState)
    (statusCode : Option Int) (responseTimeMs : Int) (now : Instant) : Option RequestLog :=
  persistRequestLog request
    { left with requestId := some (chosenRequestId request.headers uuid) } statusCode
    responseTimeMs now

/-- The declared sizes of `request_logs`. -/
structure Fits (row : RequestLog) : Prop where
  requestId : row.requestId.length ≤ 64
  endpoint : row.endpoint.length ≤ 32
  method : row.method.length ≤ 16
  idempotencyKey : ∀ key, row.idempotencyKey = some key → key.length ≤ 128

theorem hexDigits_length (width value : Nat) : (hexDigits width value).length = width := by
  induction width generalizing value with
  | zero => rfl
  | succ width ih => simp [hexDigits, ih]

theorem chosenRequestId_length (headers : List (String × String)) (uuid : BitVec 128) :
    (chosenRequestId headers uuid).length ≤ 64 := by
  have drawn : (newRequestId uuid).length ≤ 64 := by
    simp [newRequestId, hexDigits_length]
  unfold chosenRequestId
  split
  · split
    case isTrue valid =>
      have sized := valid.2
      simp only [isValidRequestId, Bool.and_eq_true, decide_eq_true_eq] at sized
      exact sized.1.2
    case isFalse => exact drawn
  · exact drawn

theorem handlerEndpoint_length (name : HandlerEndpoint) : name.val.length ≤ 32 := by
  have all : ∀ endpoint ∈ handlerEndpoints, endpoint.length ≤ 32 := by decide
  exact all name.val name.property

/-- The prefixes exclude each other. -/
theorem find_exa (exa : startsWith path "/exa/" = true) :
    proxyPrefixes.find? (startsWith path) = some "/exa/" := by
  obtain ⟨rest, spelled⟩ := List.isPrefixOf_iff_prefix.mp exa
  simp [proxyPrefixes, startsWith, ← spelled]

/-- The inferred name of a proxied path has its first segment whole, cut off or
with a prefix of four characters. -/
theorem inferApiEndpoint_fits_iff (proxied : ∃ start ∈ proxyPrefixes, startsWith path start = true) :
    (∃ endpoint, inferApiEndpoint path = some endpoint ∧ endpoint.length ≤ 32) ↔
      (startsWith path "/exa/" = true → (firstSegment "/exa/" path).length ≤ 28) := by
  have unknown : "unknown".length ≤ 32 := by decide
  by_cases exa : startsWith path "/exa/" = true
  · simp only [inferApiEndpoint, find_exa exa, Option.map_some, Option.some.injEq, ↓reduceIte,
      exists_eq_left', exa, forall_const]
    by_cases bare : suffixAfter "/exa/" path = []
    · simp [bare, firstSegment, unknown]
    · by_cases unnamed : firstSegment "/exa/" path = []
      · simp [bare, unnamed, unknown]
      · simp only [bare, unnamed, ↓reduceIte, String.length_append, String.length_ofList,
          List.length_take]
        have four : "exa_".length = 4 := by decide
        omega
  · refine iff_of_true ?_ fun holds => absurd holds exa
    obtain ⟨start, member, starts⟩ := proxied
    obtain ⟨found, first⟩ := Option.isSome_iff_exists.mp
      (List.find?_isSome.mpr ⟨start, member, starts⟩)
    have other : found ≠ "/exa/" := by
      rintro rfl
      exact exa (List.find?_some first)
    simp only [inferApiEndpoint, first, Option.map_some, Option.some.injEq, exists_eq_left', other,
      ↓reduceIte]
    split
    · exact unknown
    · split
      · split <;> decide
      · split
        · exact unknown
        · simp only [String.length_ofList, List.length_take]
          omega

/-- A proxied request can be logged exactly when a handler named its endpoint
or the name inferred for it is not too long after its prefix, and its
idempotency key, if it sends one, is within the column. -/
theorem row_fits_iff (request : Request) (uuid : BitVec 128) (left : RequestState)
    (statusCode : Option Int) (responseTimeMs : Int) (now : Instant)
    (proxied : ∃ start ∈ proxyPrefixes, startsWith request.path start = true)
    (short : request.method.length ≤ 16) :
    (∃ row, dispatchRow request uuid left statusCode responseTimeMs now = some row ∧ Fits row) ↔
      (left.endpoint = none → startsWith request.path "/exa/" = true →
        (firstSegment "/exa/" request.path).length ≤ 28) ∧
      ∀ key, requestHeader request.headers "x-idempotency-key" = some key → key.length ≤ 128 := by
  have id := chosenRequestId_length request.headers uuid
  cases named : left.endpoint with
  | some name =>
    simp only [dispatchRow, persistRequestLog, named, Option.map_some, Option.some_or,
      Option.some.injEq, exists_eq_left', reduceCtorEq, false_implies, true_and]
    exact ⟨Fits.idempotencyKey, fun key => ⟨id, handlerEndpoint_length name, short, key⟩⟩
  | none =>
    have inferred := inferApiEndpoint_fits_iff proxied
    simp only [dispatchRow, persistRequestLog, named, Option.map_none, Option.none_or,
      forall_const, ← inferred]
    constructor
    · rintro ⟨row, built, fits⟩
      obtain ⟨endpoint, found, rfl⟩ := Option.map_eq_some_iff.mp built
      exact ⟨⟨endpoint, found, fits.endpoint⟩, fits.idempotencyKey⟩
    · rintro ⟨⟨endpoint, found, sized⟩, key⟩
      exact ⟨_, Option.map_eq_some_iff.mpr ⟨endpoint, found, rfl⟩, id, sized, short, key⟩

/-- A search through the compatibility route. -/
def searchRequest : Request := { path := "/exa/search", method := "POST", headers := [] }

theorem search_fits :
    ∃ row, dispatchRow searchRequest 0 {} (some 200) 12 0 = some row ∧ Fits row := by
  have keyless : requestHeader searchRequest.headers "x-idempotency-key" = none := rfl
  have brief : (firstSegment "/exa/" searchRequest.path).length ≤ 28 := by decide
  refine (row_fits_iff searchRequest 0 {} (some 200) 12 0 ⟨"/exa/", by decide, by decide⟩
    (by decide)).mpr ⟨fun _ _ => brief, fun key found => ?_⟩
  exact absurd (keyless.symm.trans found) (by simp)

/-- A path whose first segment has 32 letters. -/
def longRequest : Request :=
  { path := "/exa/abcdefghabcdefghabcdefghabcdefgh", method := "GET", headers := [] }

/-- The name inferred for it has 36 characters. -/
theorem long_endpoint_overflows :
    startsWith longRequest.path "/exa/" = true ∧ longRequest.method.length ≤ 16 ∧
      ¬ ∃ row, dispatchRow longRequest 0 {} (some 404) 1 0 = some row ∧ Fits row := by
  refine ⟨by decide, by decide, ?_⟩
  rintro ⟨row, built, fits⟩
  have inferred : inferApiEndpoint longRequest.path =
      some "exa_abcdefghabcdefghabcdefghabcdefgh" := by decide
  rw [dispatchRow, persistRequestLog, inferred] at built
  cases built
  exact absurd fits.endpoint (by decide)

end FcamGateway.RequestLogging
