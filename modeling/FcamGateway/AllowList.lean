import FcamGateway.DotSegments
import FcamGateway.Models
import FcamGateway.PyText

/-! The upstream path allow-list. The middleware looks at the first segment of the
request's path; the handlers pass paths of their own, with an id of the request in them,
or the whole path of the request. -/
namespace FcamGateway.AllowList

open DotSegments

abbrev Text := List Char

/-- A request as the server hands it over. Its path is percent-decoded, its query is not. -/
structure Request where
  method : String
  path : String
  query : String := ""
  contentLength : Option String := none
  contentType : String := ""
  chunks : List Bytes := []

/-- What ends the path of a URL. -/
def ends (c : Char) : Bool := c = '?' || c = '#'

/-- A URL is split without its tabs and line breaks. -/
def dropped (c : Char) : Bool := c = '\t' || c = '\n' || c = '\r'

/-- Path and query of the URL that the scope is written as. -/
def Request.url (request : Request) : Text :=
  (request.path.toList ++ if request.query = "" then [] else '?' :: request.query.toList).filter
    (!dropped ·)

/-- `request.url.path`. A decoded question mark or number sign ends it. -/
def Request.urlPath (request : Request) : Text := request.url.takeWhile (!ends ·)

/-- `request.url.query`. -/
def Request.urlQuery (request : Request) : Text :=
  ((request.url.takeWhile (· ≠ '#')).dropWhile (· ≠ '?')).tail

/-- `_with_query`. -/
def Request.withQuery (request : Request) (path : Text) : Text :=
  if request.urlQuery = [] then path else path ++ '?' :: request.urlQuery

/-- The part of the configuration that says which requests are proxied. -/
structure Settings where
  enableDataPlane : Bool := true
  maxBodyBytes : Int := 1048576
  streamBodyLimit : Bool := true
  allowedPaths : List String :=
    ["scrape", "crawl", "search", "agent", "map", "extract", "batch", "browser", "team"]
  exaEnabled : Bool := false
  exaAllowedPaths : List String := ["search", "findSimilar", "contents", "answer"]

structure RequestLimitsMiddleware where
  maxBodyBytes : Int
  allowedApiPaths : List Text
  allowedExaPaths : List Text
  streamBodyLimit : Bool

/-- `text.strip("/")`. -/
def stripSlashes (text : String) : Text :=
  ((text.toList.dropWhile (· = '/')).reverse.dropWhile (· = '/')).reverse

/-- The middleware that the application adds. -/
def Settings.limits (settings : Settings) : RequestLimitsMiddleware where
  maxBodyBytes := settings.maxBodyBytes
  allowedApiPaths := settings.allowedPaths.map stripSlashes
  allowedExaPaths := if settings.exaEnabled then settings.exaAllowedPaths.map stripSlashes else []
  streamBodyLimit := settings.streamBodyLimit

def tooLarge (maxBodyBytes : Int) : FcamError :=
  { statusCode := 413, code := "REQUEST_TOO_LARGE", message := "Request body too large"
    details := [("max_body_bytes", .int maxBodyBytes)] }

/-- A segment of a route's path: fixed, one segment of any text, or all that is left. -/
inductive Part where
  | literal (text : String)
  | parameter
  | rest

/-- The path a handler passes to `forward`: its own, with the parameter spliced in; the
request's (`_path_and_query`); the request's without `/exa` (`_upstream_path`). -/
inductive Template where
  | spliced (parts : List Part) (query : Bool)
  | requestPath
  | withoutExa

structure Route where
  name : String
  method : String
  pattern : List Part
  primary : Template
  fallback : Option Template

/-- The segments of an absolute path. -/
def segments : Text → List Text
  | '/' :: rest => rest.splitOn '/'
  | _ => []

/-- The parameter of a path that fits a pattern. -/
def matchParts : List Part → List Text → Option Text
  | [], [] => some []
  | [.rest], _ :: _ => some []
  | .literal text :: parts, segment :: rest =>
    if segment = text.toList then matchParts parts rest else none
  | .parameter :: parts, segment :: rest =>
    if segment = [] then none else (matchParts parts rest).map fun _ => segment
  | _, _ => none

def Part.fill (parameter : Text) : Part → Text
  | .literal text => text.toList
  | _ => parameter

def render (segments : List Text) : Text := segments.flatMap ('/' :: ·)

/-- `_upstream_path` without the query. -/
def stripExa (path : Text) : Text :=
  let path := if "/exa".toList.isPrefixOf path then path.drop 4 else path
  if ['/'].isPrefixOf path then path else '/' :: path

/-- The path of a template, before its query. -/
def Template.path (request : Request) (parameter : Text) : Template → Text
  | .spliced parts _ => render (parts.map (Part.fill parameter))
  | .requestPath => request.urlPath
  | .withoutExa => stripExa request.urlPath

def Template.upstreamPath (request : Request) (parameter : Text) (template : Template) : Text :=
  match template with
  | .spliced _ false => template.path request parameter
  | _ => request.withQuery (template.path request parameter)

instance : Coe String Part := ⟨.literal⟩

/-- A handler that passes the path it is declared with. -/
def own (name method : String) (pattern : List Part) : Route :=
  ⟨name, method, pattern, .spliced pattern true, none⟩

/-- The routes under `/api`. They pass no query. -/
def dataPlaneRoutes : List Route :=
  [⟨"scrape", "POST", ["api", "scrape"], .spliced ["v1", "scrape"] false, none⟩,
    ⟨"crawl", "POST", ["api", "crawl"], .spliced ["v1", "crawl"] false, none⟩,
    ⟨"crawl_status", "GET", ["api", "crawl", .parameter],
      .spliced ["v1", "crawl", .parameter] false, none⟩,
    ⟨"search", "POST", ["api", "search"], .spliced ["v1", "search"] false, none⟩,
    ⟨"agent", "POST", ["api", "agent"],
      .spliced ["v2", "agent"] false, some (.spliced ["v1", "agent"] false)⟩]

/-- The routes under `/v1`. -/
def firecrawlCompatRoutes : List Route :=
  [⟨"scrape", "POST", ["v1", "scrape"], .requestPath, none⟩,
    ⟨"crawl", "POST", ["v1", "crawl"], .requestPath, none⟩,
    ⟨"crawl_status", "GET", ["v1", "crawl", .parameter], .requestPath, none⟩,
    ⟨"search", "POST", ["v1", "search"], .requestPath, none⟩,
    ⟨"agent", "POST", ["v1", "agent"], .spliced ["v2", "agent"] true, some .requestPath⟩]

/-- The routes under `/v2`, in the order they are declared in. -/
def firecrawlV2CompatRoutes : List Route :=
  [⟨"crawl", "POST", ["v2", "crawl"],
      .spliced ["v2", "crawl"] true, some (.spliced ["v2", "crawl", "start"] true)⟩,
    ⟨"crawl_start", "POST", ["v2", "crawl", "start"],
      .spliced ["v2", "crawl"] true, some (.spliced ["v2", "crawl", "start"] true)⟩,
    own "crawl_active" "GET" ["v2", "crawl", "active"],
    own "crawl_params_preview" "POST" ["v2", "crawl", "params-preview"],
    ⟨"crawl_status", "GET", ["v2", "crawl", .parameter],
      .spliced ["v2", "crawl", .parameter] true,
      some (.spliced ["v2", "crawl", "status", .parameter] true)⟩,
    ⟨"crawl_status_alias", "GET", ["v2", "crawl", "status", .parameter],
      .spliced ["v2", "crawl", .parameter] true,
      some (.spliced ["v2", "crawl", "status", .parameter] true)⟩,
    ⟨"agent", "POST", ["v2", "agent"], .requestPath, none⟩,
    ⟨"batch_scrape", "POST", ["v2", "batch", "scrape"],
      .spliced ["v2", "batch", "scrape"] true,
      some (.spliced ["v2", "batch", "scrape", "start"] true)⟩,
    ⟨"batch_scrape_start", "POST", ["v2", "batch", "scrape", "start"],
      .spliced ["v2", "batch", "scrape"] true,
      some (.spliced ["v2", "batch", "scrape", "start"] true)⟩,
    ⟨"batch_scrape_status", "GET", ["v2", "batch", "scrape", .parameter],
      .spliced ["v2", "batch", "scrape", .parameter] true,
      some (.spliced ["v2", "batch", "scrape", "status", .parameter] true)⟩,
    ⟨"batch_scrape_status_alias", "GET", ["v2", "batch", "scrape", "status", .parameter],
      .spliced ["v2", "batch", "scrape", .parameter] true,
      some (.spliced ["v2", "batch", "scrape", "status", .parameter] true)⟩,
    own "crawl_delete" "DELETE" ["v2", "crawl", .parameter],
    own "crawl_errors" "GET" ["v2", "crawl", .parameter, "errors"],
    own "batch_scrape_errors" "GET" ["v2", "batch", "scrape", .parameter, "errors"],
    own "batch_scrape_delete" "DELETE" ["v2", "batch", "scrape", .parameter],
    own "agent_status" "GET" ["v2", "agent", .parameter],
    own "agent_delete" "DELETE" ["v2", "agent", .parameter],
    own "browser_create" "POST" ["v2", "browser"],
    own "browser_list" "GET" ["v2", "browser"],
    own "browser_execute" "POST" ["v2", "browser", .parameter, "execute"],
    own "browser_delete" "DELETE" ["v2", "browser", .parameter],
    own "extract" "POST" ["v2", "extract"],
    own "extract_status" "GET" ["v2", "extract", .parameter],
    own "scrape" "POST" ["v2", "scrape"],
    own "search" "POST" ["v2", "search"],
    own "map_urls" "POST" ["v2", "map"],
    own "team_credit_usage" "GET" ["v2", "team", "credit-usage"],
    own "team_queue_status" "GET" ["v2", "team", "queue-status"],
    own "team_credit_usage_historical" "GET" ["v2", "team", "credit-usage", "historical"],
    own "team_token_usage" "GET" ["v2", "team", "token-usage"],
    own "team_token_usage_historical" "GET" ["v2", "team", "token-usage", "historical"],
    ⟨"passthrough_get", "GET", ["v2", .rest], .requestPath, none⟩,
    ⟨"passthrough_post", "POST", ["v2", .rest], .requestPath, none⟩,
    ⟨"passthrough_delete", "DELETE", ["v2", .rest], .requestPath, none⟩]

/-- The routes under `/exa`. -/
def exaCompatRoutes : List Route :=
  [⟨"exa_search", "POST", ["exa", "search"], .withoutExa, none⟩,
    ⟨"exa_find_similar", "POST", ["exa", "findSimilar"], .withoutExa, none⟩,
    ⟨"exa_contents", "POST", ["exa", "contents"], .withoutExa, none⟩,
    ⟨"exa_answer", "POST", ["exa", "answer"], .withoutExa, none⟩]

/-- The routers that the application includes. -/
def Settings.routes (settings : Settings) : List Route :=
  if settings.enableDataPlane then
    dataPlaneRoutes ++ firecrawlCompatRoutes ++ firecrawlV2CompatRoutes ++
      if settings.exaEnabled then exaCompatRoutes else []
  else []

/-- The route that serves a request, with its parameter. -/
def Settings.handler (settings : Settings) (request : Request) : Option (Route × Text) :=
  settings.routes.findSome? fun route =>
    if route.method = request.method then
      (matchParts route.pattern (segments request.path.toList)).map (route, ·)
    else none

/-- The paths that a handler passes to `forward` when the first forward answers with
`statusCode`. -/
def Settings.passed (settings : Settings) (request : Request) (statusCode : Int) : List Text :=
  match settings.handler request with
  | none => []
  | some (route, parameter) =>
    let fallback := if statusCode = 404 ∨ statusCode = 405 then route.fallback else none
    (route.primary :: fallback.toList).map (Template.upstreamPath request parameter)

end FcamGateway.AllowList
