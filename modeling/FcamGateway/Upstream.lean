import FcamGateway.KeyPool

/-! What an upstream response means to the gateway: whom a failure is attributed
to, how long a rate limit lasts, which headers travel and what a successful
request is estimated to cost. -/
namespace FcamGateway.Upstream

def dropRequestHeaders : List String :=
  ["authorization", "x-api-key", "host", "connection", "keep-alive", "proxy-authenticate",
   "proxy-authorization", "te", "trailers", "transfer-encoding", "upgrade", "x-forwarded-for",
   "x-forwarded-proto", "x-forwarded-host", "x-real-ip"]

def dropResponseHeaders : List String :=
  ["connection", "keep-alive", "content-encoding", "content-length", "proxy-authenticate",
   "proxy-authorization", "te", "trailers", "transfer-encoding", "upgrade", "set-cookie"]

/-- `Headers.get`: values of repeated names are joined. -/
def header (headers : List (String × String)) (name : String) : Option String :=
  match (headers.filter fun entry => PyText.lower entry.1 = name).map Prod.snd with
  | [] => none
  | values => some (String.intercalate ", " values)

/-- `_parse_retry_after`. -/
def parseRetryAfter (headers : List (String × String)) : Option Int :=
  match header headers "retry-after" with
  | none => none
  | some raw =>
    if raw = "" then none
    else (PyText.readInt raw).map fun seconds => max seconds 0

/-- `_parse_retry_after(headers) or cooldown_seconds`. -/
def cooldownSeconds (headers : List (String × String)) (configured : Int) : Int :=
  match parseRetryAfter headers with
  | some seconds => orDefault seconds configured
  | none => configured

def siteOrRequestMarkers : List String :=
  ["do not support this site", "we do not support this site", "site is not supported",
   "unsupported site", "scrape_all_engines_failed", "all scraping engines failed",
   "website is blocking", "website is down", "page doesn't exist", "page does not exist",
   "requires authentication", "url is invalid", "invalid url"]

def invalidKeyMarkers : List String :=
  ["invalid token", "unauthorized: invalid", "invalid api key", "invalid key",
   "api key is invalid", "api key is missing", "revoked", "malformed token"]

def creditMarkers : List String :=
  ["insufficient credit", "insufficient credits", "no credits", "out of credits", "credit limit",
   "payment required", "not enough credits", "exceeded your credit", "credits exhausted"]

/-- `_upstream_error_blob`. -/
def upstreamErrorBlob (resp : UpstreamResponse) : List Char :=
  PyText.lowerChars (PyText.decodeReplace (resp.content.take 2048))

def mentions (text : List Char) (markers : List String) : Bool := markers.any (PyText.contains text)

def looksLikeCreditError (resp : UpstreamResponse) : Bool :=
  if resp.statusCode = 402 then true
  else if resp.statusCode < 400 ∨ 500 ≤ resp.statusCode then false
  else mentions (upstreamErrorBlob resp) creditMarkers

def looksLikeSiteOrRequestError (resp : UpstreamResponse) : Bool :=
  if mentions (upstreamErrorBlob resp) siteOrRequestMarkers then true
  else resp.statusCode ∈ ([400, 404, 405, 408, 409, 413, 414, 415, 422] : List Int)

def looksLikeInvalidKey (resp : UpstreamResponse) : Bool :=
  if mentions (upstreamErrorBlob resp) invalidKeyMarkers then true else resp.statusCode = 401

inductive Outcome where
  | ok
  | credit
  | rateLimit
  | invalidKey
  | upstream5xx
  | passthrough
deriving DecidableEq

def isSuccess (statusCode : Int) : Bool := 200 ≤ statusCode && statusCode < 300

/-- Attribute an upstream response to the key or to the request. -/
def classifyUpstreamOutcome (resp : UpstreamResponse) : Outcome :=
  if isSuccess resp.statusCode then .ok
  else if looksLikeCreditError resp then .credit
  else if resp.statusCode = 429 then .rateLimit
  else if looksLikeInvalidKey resp then .invalidKey
  else if looksLikeSiteOrRequestError resp then .passthrough
  else if 500 ≤ resp.statusCode then .upstream5xx
  else .passthrough

/-- A successful status is never attributed to a failure. -/
theorem classify_ok_iff (resp : UpstreamResponse) :
    classifyUpstreamOutcome resp = .ok ↔ isSuccess resp.statusCode = true := by
  simp only [classifyUpstreamOutcome]
  split
  · simp_all
  · rename_i failed
    simp only [failed, Bool.false_eq_true, iff_false]
    repeat' split
    all_goals simp

/-- `_sanitized_request_headers`. -/
def sanitizedRequestHeaders (inbound : List (String × String)) (requestId : String) :
    List (String × String) :=
  ("x-request-id", requestId) ::
    ["accept", "content-type", "user-agent"].filterMap fun name =>
      match header inbound name with
      | some value => if value = "" then none else some (name, value)
      | none => none

/-- Headers of a proxied request: the kept ones, the key's and no dropped one
besides the key's. -/
def upstreamHeaders (safe auth : List (String × String)) : List (String × String) :=
  (safe.filter (fun entry => auth.all (·.1 ≠ entry.1)) ++ auth).filter fun entry =>
    !(PyText.lower entry.1 ∈ dropRequestHeaders &&
      !(PyText.lower entry.1 ∈ ["authorization", "x-api-key"]))

/-- `Headers.items`: lower-case names, values of repeated names joined. -/
def headerItems (headers : List (String × String)) : List (String × String) :=
  headers.foldl (fun items entry =>
    let name := PyText.lower entry.1
    if items.any (·.1 = name) then
      items.map fun item => if item.1 = name then (name, item.2 ++ ", " ++ entry.2) else item
    else items ++ [(name, entry.2)]) []

/-- `_to_fastapi_response`: the response a client gets for an upstream one. -/
def toFastapiResponse (upstream : UpstreamResponse) : UpstreamResponse :=
  { upstream with
    headers := (headerItems upstream.headers).filter fun entry => !(entry.1 ∈ dropResponseHeaders) }

/-- `CREDIT_COST_MAP`. -/
def creditCostMap : List (String × Int) :=
  [("/v1/scrape", 1), ("/v1/crawl", 5), ("/v1/search", 1), ("/v1/map", 1), ("/v2/scrape", 1),
   ("/v2/crawl", 5), ("/v2/map", 1), ("/v2/extract", 2), ("/v2/batch/scrape", 1)]

/-- `response_data.get("data", {}).get(name, 1)`, then `int` with fallback 1.
The outer `none` is an exception of a value that has no such method. -/
def readAmount (response : Json) (name : String) : Option Int :=
  match response with
  | .obj members =>
    match (Json.get? members "data").getD (.obj []) with
    | .obj data => some (((Json.get? data name).getD (.int 1)).toInt?.getD 1)
    | _ => none
  | _ => none

/-- `estimate_credit_cost`; `none` is an exception. -/
def estimateCreditCost (endpoint : String) (response : Option Json) : Option Int :=
  let baseCost := (creditCostMap.lookup endpoint).getD 1
  let given := response.bind fun value => if value.truthy then some value else none
  match given with
  | none => some baseCost
  | some value =>
    if PyText.contains endpoint.toList "/crawl" then
      (readAmount value "total").map fun pages => max baseCost (max pages 1)
    else if PyText.contains endpoint.toList "/batch/" then
      (readAmount value "count").map fun count => max (baseCost * max count 1) 1
    else some baseCost

/-- `normalize_endpoint`. -/
def normalizeEndpoint (path : String) : String :=
  let noQuery := path.toList.takeWhile (· ≠ '?')
  let parts := (KeyPool.splitOn (· == '/') noQuery).map String.ofList
  if parts.length ≥ 4 ∧ parts[2]? = some "crawl" then String.intercalate "/" (parts.take 3)
  else if parts.length ≥ 5 ∧ parts[2]? = some "batch" then String.intercalate "/" (parts.take 4)
  else String.ofList noQuery

/-- The remaining credits after a successful request, where the estimate changes
them. The parser reads a body that is declared as JSON. -/
def estimatedRemaining (foreign : Foreign) (config : CreditMonitoringConfig) (method path : String)
    (key : KeyColumns) (resp : UpstreamResponse) : Option Int :=
  if config.enabled && config.localEstimationEnabled && config.localEstimationSyncOnRequest &&
      method.toUpper != "GET" then
    let endpoint := normalizeEndpoint path
    match creditCostMap.lookup endpoint, key.cachedRemainingCredits with
    | some _, some old =>
      let contentType := PyText.lower ((header resp.headers "content-type").getD "")
      let data :=
        if "application/json".toList <+: contentType.toList then foreign.parseJson resp.content
        else none
      match estimateCreditCost endpoint data with
      | some cost =>
        let remaining := max 0 (old - cost)
        if remaining = old then none else some remaining
      | none => none
    | _, _ => none
  else none

example : normalizeEndpoint "/v2/batch/scrape/xyz789?page=2" = "/v2/batch/scrape" ∧
    normalizeEndpoint "/v1/crawl/abc123" = "/v1/crawl" ∧ normalizeEndpoint "/" = "/" := by
  decide

end FcamGateway.Upstream
