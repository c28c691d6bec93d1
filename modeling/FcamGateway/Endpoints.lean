import FcamGateway.DataPlaneCourse
import FcamGateway.Embedding
import FcamGateway.Idempotency
import FcamGateway.RequestLogging
import FcamGateway.ResourceBinding

/-! The endpoints of the data plane: which handler a request goes to, and what a handler does around
its forwards. A handler may claim an idempotency key first, look up the key that a resource is bound
to, and bind a resource that the upstream created. -/
namespace FcamGateway.Endpoints
open Prog Upstream Forwarder DataPlane

set_option linter.unusedSectionVars false

/-- What the handlers read of a request besides its client. -/
structure Inbound where
  requestId : String
  method : String
  urlPath : String
  query : String
  headers : List (String × String)
  payload : Option Json

/-- `request.headers.get(name)`. -/
def Inbound.header (inbound : Inbound) (name : String) : Option String :=
  (inbound.headers.find? fun entry => PyText.lower entry.1 = name).map Prod.snd

/-- `_with_query`. -/
def Inbound.withQuery (inbound : Inbound) (path : String) : String :=
  Idempotency.withQuery inbound.query path

/-- `_path_and_query`. -/
def Inbound.pathAndQuery (inbound : Inbound) : String := inbound.withQuery inbound.urlPath

/-- What a handler does: the request it forwards, the idempotency key it claims first, the resource
whose key it looks up, the type of the resource it binds, and the name it gives its endpoint, which
some handlers do last. -/
structure Endpoint where
  method : String
  primaryPath : String
  fallbackPath : Option String := none
  payload : Option Json := none
  provider : String := "firecrawl"
  claims : Option Idempotency.Endpoint := none
  follows : Option (String × String) := none
  creates : Option String := none
  endpointName : Option RequestLogging.HandlerEndpoint := none
  namedLast : Bool := false

def Endpoint.named (endpoint : Endpoint) (name : RequestLogging.HandlerEndpoint) : Endpoint :=
  { endpoint with endpointName := some name }

/-- The handler names its endpoint once its forward has returned. -/
def Endpoint.namedAfter (endpoint : Endpoint) (name : RequestLogging.HandlerEndpoint) : Endpoint :=
  { endpoint with endpointName := some name, namedLast := true }

/-- A handler that only forwards. -/
def proxy (method path : String) (payload : Option Json := none) : Endpoint :=
  { method, primaryPath := path, payload }

/-- A handler that forwards under an idempotency key. -/
def claiming (claims : Idempotency.Endpoint) (payload : Option Json) (path : String)
    (fallbackPath : Option String := none) : Endpoint :=
  { method := "POST", primaryPath := path, fallbackPath, payload, claims := some claims }

/-- A handler that creates a resource and binds it. -/
def creating (resourceType : String) (payload : Option Json) (path : String)
    (fallbackPath : Option String := none) (claims : Option Idempotency.Endpoint := none) :
    Endpoint :=
  { method := "POST", primaryPath := path, fallbackPath, payload, claims
    creates := some resourceType }

/-- A handler that forwards with the key that a resource is bound to. -/
def following (method resourceType resourceId path : String) (fallbackPath : Option String := none)
    (payload : Option Json := none) : Endpoint :=
  { method, primaryPath := path, fallbackPath, payload
    follows := some (resourceType, resourceId) }

/-! ### `/api` -/

namespace Api

variable (inbound : Inbound)

def scrape : Endpoint :=
  proxy "POST" "/v1/scrape" inbound.payload
    |>.namedAfter ⟨"scrape", by decide⟩

def crawl : Endpoint :=
  claiming .apiCrawl inbound.payload "/v1/crawl"
    |>.named ⟨"crawl", by decide⟩

def crawlStatus (crawlId : String) : Endpoint :=
  proxy "GET" ("/v1/crawl/" ++ crawlId)
    |>.namedAfter ⟨"crawl_status", by decide⟩

def search : Endpoint :=
  proxy "POST" "/v1/search" inbound.payload
    |>.namedAfter ⟨"search", by decide⟩

def agent : Endpoint :=
  claiming .apiAgent inbound.payload "/v2/agent" (some "/v1/agent")
    |>.named ⟨"agent", by decide⟩

end Api

/-! ### `/v1` -/

namespace V1

variable (inbound : Inbound)

def scrape : Endpoint :=
  proxy "POST" inbound.pathAndQuery inbound.payload
    |>.namedAfter ⟨"scrape", by decide⟩

def crawl : Endpoint :=
  claiming .v1Crawl inbound.payload inbound.pathAndQuery
    |>.named ⟨"crawl", by decide⟩

def crawlStatus : Endpoint :=
  proxy "GET" inbound.pathAndQuery
    |>.namedAfter ⟨"crawl_status", by decide⟩

def search : Endpoint :=
  proxy "POST" inbound.pathAndQuery inbound.payload
    |>.namedAfter ⟨"search", by decide⟩

def agent : Endpoint :=
  claiming .v1Agent inbound.payload (inbound.withQuery "/v2/agent") (some inbound.pathAndQuery)
    |>.named ⟨"agent", by decide⟩

end V1

/-! ### `/v2` -/

namespace V2

variable (inbound : Inbound) (jobId sessionId : String)

def crawl : Endpoint :=
  creating "crawl" inbound.payload (inbound.withQuery "/v2/crawl")
    (some (inbound.withQuery "/v2/crawl/start")) (some .v2Crawl)
    |>.named ⟨"crawl", by decide⟩

def crawlStart : Endpoint :=
  creating "crawl" inbound.payload (inbound.withQuery "/v2/crawl")
    (some (inbound.withQuery "/v2/crawl/start")) (some .v2CrawlStart)
    |>.named ⟨"crawl", by decide⟩

def crawlActive : Endpoint :=
  proxy "GET" (inbound.withQuery "/v2/crawl/active")
    |>.named ⟨"crawl_active", by decide⟩

def crawlParamsPreview : Endpoint :=
  proxy "POST" (inbound.withQuery "/v2/crawl/params-preview") inbound.payload
    |>.named ⟨"crawl_params_preview", by decide⟩

def crawlStatus : Endpoint :=
  following "GET" "crawl" jobId (inbound.withQuery ("/v2/crawl/" ++ jobId))
    (some (inbound.withQuery ("/v2/crawl/status/" ++ jobId)))
    |>.named ⟨"crawl_status", by decide⟩

def crawlStatusAlias : Endpoint :=
  following "GET" "crawl" jobId (inbound.withQuery ("/v2/crawl/" ++ jobId))
    (some (inbound.withQuery ("/v2/crawl/status/" ++ jobId)))
    |>.named ⟨"crawl_status", by decide⟩

def agent : Endpoint :=
  creating "agent" inbound.payload inbound.pathAndQuery none (some .v2Agent)
    |>.named ⟨"agent", by decide⟩

def batchScrape : Endpoint :=
  creating "batch_scrape" inbound.payload (inbound.withQuery "/v2/batch/scrape")
    (some (inbound.withQuery "/v2/batch/scrape/start"))
    |>.named ⟨"batch", by decide⟩

def batchScrapeStart : Endpoint :=
  creating "batch_scrape" inbound.payload (inbound.withQuery "/v2/batch/scrape")
    (some (inbound.withQuery "/v2/batch/scrape/start"))
    |>.named ⟨"batch", by decide⟩

def batchScrapeStatus : Endpoint :=
  following "GET" "batch_scrape" jobId (inbound.withQuery ("/v2/batch/scrape/" ++ jobId))
    (some (inbound.withQuery ("/v2/batch/scrape/status/" ++ jobId)))
    |>.named ⟨"batch", by decide⟩

def batchScrapeStatusAlias : Endpoint :=
  following "GET" "batch_scrape" jobId (inbound.withQuery ("/v2/batch/scrape/" ++ jobId))
    (some (inbound.withQuery ("/v2/batch/scrape/status/" ++ jobId)))
    |>.named ⟨"batch", by decide⟩

def crawlDelete : Endpoint :=
  following "DELETE" "crawl" jobId (inbound.withQuery ("/v2/crawl/" ++ jobId))
    |>.named ⟨"crawl", by decide⟩

def crawlErrors : Endpoint :=
  following "GET" "crawl" jobId (inbound.withQuery ("/v2/crawl/" ++ jobId ++ "/errors"))
    |>.named ⟨"crawl_status", by decide⟩

def batchScrapeErrors : Endpoint :=
  following "GET" "batch_scrape" jobId
    (inbound.withQuery ("/v2/batch/scrape/" ++ jobId ++ "/errors"))
    |>.named ⟨"batch", by decide⟩

def batchScrapeDelete : Endpoint :=
  following "DELETE" "batch_scrape" jobId (inbound.withQuery ("/v2/batch/scrape/" ++ jobId))
    |>.named ⟨"batch", by decide⟩

def agentStatus : Endpoint :=
  following "GET" "agent" jobId (inbound.withQuery ("/v2/agent/" ++ jobId))
    |>.named ⟨"agent", by decide⟩

def agentDelete : Endpoint :=
  following "DELETE" "agent" jobId (inbound.withQuery ("/v2/agent/" ++ jobId))
    |>.named ⟨"agent", by decide⟩

def browserCreate : Endpoint :=
  creating "browser" inbound.payload (inbound.withQuery "/v2/browser")
    |>.named ⟨"browser", by decide⟩

def browserList : Endpoint :=
  proxy "GET" (inbound.withQuery "/v2/browser")
    |>.named ⟨"browser", by decide⟩

def browserExecute : Endpoint :=
  following "POST" "browser" sessionId
    (inbound.withQuery ("/v2/browser/" ++ sessionId ++ "/execute")) none inbound.payload
    |>.named ⟨"browser", by decide⟩

def browserDelete : Endpoint :=
  following "DELETE" "browser" sessionId (inbound.withQuery ("/v2/browser/" ++ sessionId))
    |>.named ⟨"browser", by decide⟩

def extract : Endpoint :=
  creating "extract" inbound.payload (inbound.withQuery "/v2/extract")
    |>.named ⟨"extract", by decide⟩

def extractStatus : Endpoint :=
  following "GET" "extract" jobId (inbound.withQuery ("/v2/extract/" ++ jobId))
    |>.named ⟨"extract", by decide⟩

def scrape : Endpoint :=
  proxy "POST" (inbound.withQuery "/v2/scrape") inbound.payload
    |>.named ⟨"scrape", by decide⟩

def search : Endpoint :=
  proxy "POST" (inbound.withQuery "/v2/search") inbound.payload
    |>.named ⟨"search", by decide⟩

def mapUrls : Endpoint :=
  proxy "POST" (inbound.withQuery "/v2/map") inbound.payload
    |>.named ⟨"map", by decide⟩

def teamCreditUsage : Endpoint :=
  proxy "GET" (inbound.withQuery "/v2/team/credit-usage")
    |>.named ⟨"team_credit_usage", by decide⟩

def teamQueueStatus : Endpoint :=
  proxy "GET" (inbound.withQuery "/v2/team/queue-status")
    |>.named ⟨"team_queue_status", by decide⟩

def teamCreditUsageHistorical : Endpoint :=
  proxy "GET" (inbound.withQuery "/v2/team/credit-usage/historical")
    |>.named ⟨"team_credit_usage_historical", by decide⟩

def teamTokenUsage : Endpoint :=
  proxy "GET" (inbound.withQuery "/v2/team/token-usage")
    |>.named ⟨"team_token_usage", by decide⟩

def teamTokenUsageHistorical : Endpoint :=
  proxy "GET" (inbound.withQuery "/v2/team/token-usage/historical")
    |>.named ⟨"team_token_usage_historical", by decide⟩

def passthroughGet : Endpoint := proxy "GET" inbound.pathAndQuery

def passthroughPost : Endpoint := proxy "POST" inbound.pathAndQuery inbound.payload

def passthroughDelete : Endpoint := proxy "DELETE" inbound.pathAndQuery

end V2

/-! ### `/exa` -/

namespace Exa

variable (inbound : Inbound)

/-- `_upstream_path`. -/
def upstreamPath : String :=
  let path := inbound.urlPath
  let path := if path.startsWith "/exa" then path.drop 4 |>.toString else path
  inbound.withQuery (if path.startsWith "/" then path else "/" ++ path)

def forward : Endpoint :=
  { proxy "POST" (upstreamPath inbound) inbound.payload with provider := "exa" }

def exaSearch : Endpoint :=
  forward inbound
    |>.namedAfter ⟨"exa_search", by decide⟩

def exaFindSimilar : Endpoint :=
  forward inbound
    |>.namedAfter ⟨"exa_findSimilar", by decide⟩

def exaContents : Endpoint :=
  forward inbound
    |>.namedAfter ⟨"exa_contents", by decide⟩

def exaAnswer : Endpoint :=
  forward inbound
    |>.namedAfter ⟨"exa_answer", by decide⟩

end Exa

/-! ### Routes -/

/-- A segment of the path of a route; `rest` takes what is left of the path. -/
inductive Segment where
  | text (value : String)
  | param
  | rest

/-- Whether a handler has a parameter for the body of the request. -/
inductive BodyParam where
  | absent
  | optional
  | required

/-- A route: its method, its path, its body parameter and its handler, which is given the parameter
of the path. -/
structure Route where
  method : String
  path : List Segment
  body : BodyParam
  endpoint : Inbound → String → Endpoint

/-- The parameter of a path that fits the route; a route without one has the empty text. -/
def fits : List Segment → List String → Option String
  | [], [] => some ""
  | [.rest], _ :: _ => some ""
  | .text value :: path, segment :: segments =>
    if segment = value then fits path segments else none
  | .param :: path, segment :: segments =>
    if segment = "" then none else (fits path segments).map fun _ => segment
  | _, _ => none

def apiRoutes : List Route :=
  [⟨"POST", [.text "api", .text "scrape"], .required, fun inbound _ => Api.scrape inbound⟩,
    ⟨"POST", [.text "api", .text "crawl"], .required, fun inbound _ => Api.crawl inbound⟩,
    ⟨"GET", [.text "api", .text "crawl", .param], .absent,
      fun _ crawlId => Api.crawlStatus crawlId⟩,
    ⟨"POST", [.text "api", .text "search"], .required, fun inbound _ => Api.search inbound⟩,
    ⟨"POST", [.text "api", .text "agent"], .required, fun inbound _ => Api.agent inbound⟩]

def v1Routes : List Route :=
  [⟨"POST", [.text "v1", .text "scrape"], .required, fun inbound _ => V1.scrape inbound⟩,
    ⟨"POST", [.text "v1", .text "crawl"], .required, fun inbound _ => V1.crawl inbound⟩,
    ⟨"GET", [.text "v1", .text "crawl", .param], .absent, fun inbound _ => V1.crawlStatus inbound⟩,
    ⟨"POST", [.text "v1", .text "search"], .required, fun inbound _ => V1.search inbound⟩,
    ⟨"POST", [.text "v1", .text "agent"], .required, fun inbound _ => V1.agent inbound⟩]

/-- In the order of the source: `/crawl/active` and its like stand before `/crawl/{job_id}`, and the
passthroughs come last. -/
def v2Routes : List Route :=
  [⟨"POST", [.text "v2", .text "crawl"], .required, fun inbound _ => V2.crawl inbound⟩,
    ⟨"POST", [.text "v2", .text "crawl", .text "start"], .required,
      fun inbound _ => V2.crawlStart inbound⟩,
    ⟨"GET", [.text "v2", .text "crawl", .text "active"], .absent,
      fun inbound _ => V2.crawlActive inbound⟩,
    ⟨"POST", [.text "v2", .text "crawl", .text "params-preview"], .required,
      fun inbound _ => V2.crawlParamsPreview inbound⟩,
    ⟨"GET", [.text "v2", .text "crawl", .param], .absent, V2.crawlStatus⟩,
    ⟨"GET", [.text "v2", .text "crawl", .text "status", .param], .absent, V2.crawlStatusAlias⟩,
    ⟨"POST", [.text "v2", .text "agent"], .required, fun inbound _ => V2.agent inbound⟩,
    ⟨"POST", [.text "v2", .text "batch", .text "scrape"], .required,
      fun inbound _ => V2.batchScrape inbound⟩,
    ⟨"POST", [.text "v2", .text "batch", .text "scrape", .text "start"], .required,
      fun inbound _ => V2.batchScrapeStart inbound⟩,
    ⟨"GET", [.text "v2", .text "batch", .text "scrape", .param], .absent, V2.batchScrapeStatus⟩,
    ⟨"GET", [.text "v2", .text "batch", .text "scrape", .text "status", .param], .absent,
      V2.batchScrapeStatusAlias⟩,
    ⟨"DELETE", [.text "v2", .text "crawl", .param], .absent, V2.crawlDelete⟩,
    ⟨"GET", [.text "v2", .text "crawl", .param, .text "errors"], .absent, V2.crawlErrors⟩,
    ⟨"GET", [.text "v2", .text "batch", .text "scrape", .param, .text "errors"], .absent,
      V2.batchScrapeErrors⟩,
    ⟨"DELETE", [.text "v2", .text "batch", .text "scrape", .param], .absent, V2.batchScrapeDelete⟩,
    ⟨"GET", [.text "v2", .text "agent", .param], .absent, V2.agentStatus⟩,
    ⟨"DELETE", [.text "v2", .text "agent", .param], .absent, V2.agentDelete⟩,
    ⟨"POST", [.text "v2", .text "browser"], .optional, fun inbound _ => V2.browserCreate inbound⟩,
    ⟨"GET", [.text "v2", .text "browser"], .absent, fun inbound _ => V2.browserList inbound⟩,
    ⟨"POST", [.text "v2", .text "browser", .param, .text "execute"], .required, V2.browserExecute⟩,
    ⟨"DELETE", [.text "v2", .text "browser", .param], .absent, V2.browserDelete⟩,
    ⟨"POST", [.text "v2", .text "extract"], .required, fun inbound _ => V2.extract inbound⟩,
    ⟨"GET", [.text "v2", .text "extract", .param], .absent, V2.extractStatus⟩,
    ⟨"POST", [.text "v2", .text "scrape"], .required, fun inbound _ => V2.scrape inbound⟩,
    ⟨"POST", [.text "v2", .text "search"], .required, fun inbound _ => V2.search inbound⟩,
    ⟨"POST", [.text "v2", .text "map"], .required, fun inbound _ => V2.mapUrls inbound⟩,
    ⟨"GET", [.text "v2", .text "team", .text "credit-usage"], .absent,
      fun inbound _ => V2.teamCreditUsage inbound⟩,
    ⟨"GET", [.text "v2", .text "team", .text "queue-status"], .absent,
      fun inbound _ => V2.teamQueueStatus inbound⟩,
    ⟨"GET", [.text "v2", .text "team", .text "credit-usage", .text "historical"], .absent,
      fun inbound _ => V2.teamCreditUsageHistorical inbound⟩,
    ⟨"GET", [.text "v2", .text "team", .text "token-usage"], .absent,
      fun inbound _ => V2.teamTokenUsage inbound⟩,
    ⟨"GET", [.text "v2", .text "team", .text "token-usage", .text "historical"], .absent,
      fun inbound _ => V2.teamTokenUsageHistorical inbound⟩,
    ⟨"GET", [.text "v2", .rest], .absent, fun inbound _ => V2.passthroughGet inbound⟩,
    ⟨"POST", [.text "v2", .rest], .optional, fun inbound _ => V2.passthroughPost inbound⟩,
    ⟨"DELETE", [.text "v2", .rest], .absent, fun inbound _ => V2.passthroughDelete inbound⟩]

def exaRoutes : List Route :=
  [⟨"POST", [.text "exa", .text "search"], .required, fun inbound _ => Exa.exaSearch inbound⟩,
    ⟨"POST", [.text "exa", .text "findSimilar"], .required,
      fun inbound _ => Exa.exaFindSimilar inbound⟩,
    ⟨"POST", [.text "exa", .text "contents"], .required, fun inbound _ => Exa.exaContents inbound⟩,
    ⟨"POST", [.text "exa", .text "answer"], .required, fun inbound _ => Exa.exaAnswer inbound⟩]

/-- The routers that are included, in their order. -/
def routes (exaEnabled : Bool) : List Route :=
  apiRoutes ++ v1Routes ++ v2Routes ++ if exaEnabled then exaRoutes else []

/-- The first route whose path and method fit, as Starlette chooses it, with its parameter. -/
def matching (exaEnabled : Bool) (method : String) (segments : List String) :
    Option (Route × String) :=
  (routes exaEnabled).findSome? fun route =>
    if route.method = method then (fits route.path segments).map fun param => (route, param)
    else none

/-- The endpoint of a request. -/
def route (exaEnabled : Bool) (inbound : Inbound) (segments : List String) : Option Endpoint :=
  (matching exaEnabled inbound.method segments).map fun found => found.1.endpoint inbound found.2

theorem matching_some {exaEnabled : Bool} {method : String} {segments : List String} {entry : Route}
    {param : String} (found : matching exaEnabled method segments = some (entry, param)) :
    entry ∈ routes exaEnabled ∧ entry.method = method ∧ fits entry.path segments = some param := by
  obtain ⟨other, listed, fitting⟩ := List.exists_of_findSome?_eq_some found
  split at fitting
  · rename_i same
    obtain ⟨taken, fitting, paired⟩ := Option.map_eq_some_iff.mp fitting
    cases paired
    exact ⟨listed, same, fitting⟩
  · cases fitting

/-- The endpoint of a request is that of a route that its path fits. -/
theorem route_some {exaEnabled : Bool} {inbound : Inbound} {segments : List String}
    {endpoint : Endpoint} (routed : route exaEnabled inbound segments = some endpoint) :
    ∃ entry param, entry ∈ routes exaEnabled ∧ fits entry.path segments = some param ∧
      endpoint = entry.endpoint inbound param := by
  obtain ⟨⟨entry, param⟩, found, rfl⟩ := Option.map_eq_some_iff.mp routed
  obtain ⟨listed, -, fitting⟩ := matching_some found
  exact ⟨entry, param, listed, fitting, rfl⟩

def notFound : FcamError := { statusCode := 404, code := "NOT_FOUND", message := "Not found" }

def methodNotAllowed : FcamError :=
  { statusCode := 405, code := "INTERNAL_ERROR", message := "HTTP error" }

/-- The path with a slash at its end, or without those at its end. -/
def slashed (segments : List String) : List String :=
  if segments.getLast? = some "" then (segments.reverse.dropWhile (· = "")).reverse
  else segments ++ [""]

/-- What becomes of a request that fits no route. -/
inductive Unrouted where
  | redirect (segments : List String)
  | refused (error : FcamError)

/-- Starlette redirects to a path that fits but for its last slash. -/
def unrouted (exaEnabled : Bool) (segments : List String) : Unrouted :=
  let fitting (segments : List String) :=
    (routes exaEnabled).any fun route => (fits route.path segments).isSome
  if fitting segments then .refused methodNotAllowed
  else if fitting (slashed segments) then .redirect (slashed segments)
  else .refused notFound

end FcamGateway.Endpoints
