import Mathlib.Algebra.Order.Field.Rat
import FcamGateway.Credits
import FcamGateway.KeyStore

/-! The asynchronous credit probe and its synchronous twin, each as its own
function builds the request and reads the reply. Both are the one reading that
the rest of the development uses. -/
namespace FcamGateway.Credits

/-- The parts of a URL that a base URL is put together from again. -/
structure UrlParts where
  scheme : String
  netloc : String
  path : String

/-- The URL functions of the source language's library. An error is the text of
the `ValueError` for a URL that cannot be split. -/
structure UrlLibrary where
  urlsplit : String → Except String UrlParts
  urlunsplit : UrlParts → String

/-- `str.rstrip("/")`. -/
def rstripSlash (text : String) : String :=
  String.ofList (text.toList.reverse.dropWhile (· = '/')).reverse

/-- `str.endswith`. -/
def endsWith (text suffix : String) : Bool := suffix.toList.isSuffixOf text.toList

/-- `strip_provider_version_suffix`. -/
def stripProviderVersionSuffix (urls : UrlLibrary) (baseUrl : String) :
    Except String (String × Option String) :=
  let normalized := rstripSlash baseUrl
  (urls.urlsplit normalized).map fun parts =>
    if parts.scheme = "" ∨ parts.netloc = "" then (normalized, none)
    else
      let path := rstripSlash parts.path
      let cut := String.ofList (path.toList.dropLast.dropLast.dropLast)
      if endsWith path "/v1" then
        (rstripSlash (urls.urlunsplit { parts with path := cut }), some "v1")
      else if endsWith path "/v2" then
        (rstripSlash (urls.urlunsplit { parts with path := cut }), some "v2")
      else (rstripSlash (urls.urlunsplit { parts with path }), none)

/-- One request of a probe's client. -/
structure ProbeRequest (R : Type) where
  url : String
  headers : List (String × String)
  timeout : R
  followRedirects : Bool := false

/-- `value.get(name)`; the outer `none` is an exception of a value that has no
such method. -/
def getMember (value : Json) (name : String) : Option (Option Json) :=
  match value with
  | .obj members => some (Json.get? members name)
  | _ => none

@[simp] theorem getMember_obj (members : List (String × Json)) (name : String) :
    getMember (.obj members) name = some (Json.get? members name) := rfl

/-- `value or {}`. -/
def orEmpty : Option Json → Json
  | some value => if value.truthy then value else .obj []
  | none => .obj []

/-- `int(value or 0)`. -/
def intOrZero : Option Json → Option Int
  | some value => if value.truthy then value.toInt? else some 0
  | none => some 0

/-- `str(value or fallback)`. -/
def strOr (foreign : Foreign) (value : Option Json) (fallback : String) : String :=
  match value with
  | some value => if value.truthy then foreign.pyStr value else fallback
  | none => fallback

section
variable {R : Type} [Field R] [LinearOrder R]

/-- `probe_credit_from_firecrawl`. `get` is the client's request. -/
def probeCreditFromFirecrawl (foreign : Foreign) (urls : UrlLibrary) (apiKeyId : Nat)
    (plaintextApiKey : String) (config : AppConfig R) (requestId : String) (now : Instant)
    (get : ProbeRequest R → ProbeReply) : Except String CreditFetchResult :=
  (stripProviderVersionSuffix urls config.firecrawl.baseUrl).bind fun stripped =>
    let request : ProbeRequest R :=
      { url := stripped.1 ++ "/v2/team/credit-usage"
        headers := [("Authorization", "Bearer " ++ plaintextApiKey), ("X-Request-Id", requestId),
          ("Accept", "application/json")]
        timeout := (max config.firecrawl.timeout 1 : Int) }
    match get request with
    | .timeout => .ok { apiKeyId, kind := .error, errorMessage := some "Request timeout"
                        httpStatus := some 504, fetchedAt := some now }
    | .failed text => .ok { apiKeyId, kind := .error, errorMessage := some text
                            fetchedAt := some now }
    | .response statusCode json text =>
      if statusCode = 200 then
        match json with
        | none => .ok { apiKeyId, kind := .error, errorMessage := some "Invalid JSON response"
                        httpStatus := some 200, fetchedAt := some now }
        | some payload =>
          match getMember payload "success" with
          | none => .error (foreign.payloadError payload)
          | some success =>
            if !success.any Json.truthy then
              .ok { apiKeyId, kind := .error
                    errorMessage := some (strOr foreign (getMember payload "error").join
                      "Upstream returned success=false")
                    httpStatus := some 200, fetchedAt := some now }
            else
              let data := orEmpty (getMember payload "data").join
              match (getMember data "remainingCredits").bind intOrZero with
              | none => .error (foreign.payloadError payload)
              | some remaining =>
                match (getMember data "planCredits").bind intOrZero with
                | none => .error (foreign.payloadError payload)
                | some plan =>
                  .ok { apiKeyId, kind := .success, remainingCredits := remaining
                        planCredits := plan
                        billingPeriodStart :=
                          parseDatetime foreign (getMember data "billingPeriodStart").join
                        billingPeriodEnd :=
                          parseDatetime foreign (getMember data "billingPeriodEnd").join
                        fetchedAt := some now }
      else if statusCode = 401 ∨ statusCode = 403 then
        .ok { apiKeyId, kind := .invalid, errorMessage := some (toString statusCode ++ " " ++ text)
              httpStatus := some statusCode, fetchedAt := some now }
      else if statusCode = 429 then
        .ok { apiKeyId, kind := .cooling, errorMessage := some "429 Rate Limited"
              httpStatus := some 429, fetchedAt := some now }
      else
        .ok { apiKeyId, kind := .error, errorMessage := some (toString statusCode ++ " " ++ text)
              httpStatus := some statusCode, fetchedAt := some now }

/-- `probe_credit_from_firecrawl_sync`. Its request waits for eight seconds at
most, unless the caller says how long. -/
def probeCreditFromFirecrawlSync (foreign : Foreign) (urls : UrlLibrary) (apiKeyId : Nat)
    (plaintextApiKey : String) (config : AppConfig R) (requestId : String)
    (timeoutSeconds : Option R) (now : Instant) (get : ProbeRequest R → ProbeReply) :
    Except String CreditFetchResult :=
  (stripProviderVersionSuffix urls config.firecrawl.baseUrl).bind fun stripped =>
    let base : Int := max (orDefault config.firecrawl.timeout 30) 1
    let seconds : R := match timeoutSeconds with
      | some seconds => seconds
      | none => min (base : R) 8
    let request : ProbeRequest R :=
      { url := stripped.1 ++ "/v2/team/credit-usage"
        headers := [("Authorization", "Bearer " ++ plaintextApiKey), ("X-Request-Id", requestId),
          ("Accept", "application/json")]
        timeout := max seconds 1 }
    match get request with
    | .timeout => .ok { apiKeyId, kind := .error, errorMessage := some "Request timeout"
                        httpStatus := some 504, fetchedAt := some now }
    | .failed text => .ok { apiKeyId, kind := .error, errorMessage := some text
                            fetchedAt := some now }
    | .response statusCode json text =>
      if statusCode = 200 then
        match json with
        | none => .ok { apiKeyId, kind := .error, errorMessage := some "Invalid JSON response"
                        httpStatus := some 200, fetchedAt := some now }
        | some payload =>
          match getMember payload "success" with
          | none => .error (foreign.payloadError payload)
          | some success =>
            if !success.any Json.truthy then
              .ok { apiKeyId, kind := .error
                    errorMessage := some (strOr foreign (getMember payload "error").join
                      "Upstream returned success=false")
                    httpStatus := some 200, fetchedAt := some now }
            else
              let data := orEmpty (getMember payload "data").join
              match (getMember data "remainingCredits").bind intOrZero with
              | none => .error (foreign.payloadError payload)
              | some remaining =>
                match (getMember data "planCredits").bind intOrZero with
                | none => .error (foreign.payloadError payload)
                | some plan =>
                  .ok { apiKeyId, kind := .success, remainingCredits := remaining
                        planCredits := plan
                        billingPeriodStart :=
                          parseDatetime foreign (getMember data "billingPeriodStart").join
                        billingPeriodEnd :=
                          parseDatetime foreign (getMember data "billingPeriodEnd").join
                        fetchedAt := some now }
      else if statusCode = 401 ∨ statusCode = 403 then
        .ok { apiKeyId, kind := .invalid, errorMessage := some (toString statusCode ++ " " ++ text)
              httpStatus := some statusCode, fetchedAt := some now }
      else if statusCode = 429 then
        .ok { apiKeyId, kind := .cooling, errorMessage := some "429 Rate Limited"
              httpStatus := some 429, fetchedAt := some now }
      else
        .ok { apiKeyId, kind := .error, errorMessage := some (toString statusCode ++ " " ++ text)
              httpStatus := some statusCode, fetchedAt := some now }

variable {foreign : Foreign} {urls : UrlLibrary} {config : AppConfig R} {reply : ProbeReply}

/-- What the reading of a parsed body makes of its data. -/
theorem readPayload_data (success : (Json.get? members "success").any Json.truthy = true) :
    readPayload foreign apiKeyId now (.obj members) =
      match (getMember (orEmpty (Json.get? members "data")) "remainingCredits").bind intOrZero with
      | none => none
      | some remaining =>
        match (getMember (orEmpty (Json.get? members "data")) "planCredits").bind intOrZero with
        | none => none
        | some plan => some
          { apiKeyId, kind := .success, remainingCredits := remaining, planCredits := plan
            billingPeriodStart := parseDatetime foreign
              (getMember (orEmpty (Json.get? members "data")) "billingPeriodStart").join
            billingPeriodEnd := parseDatetime foreign
              (getMember (orEmpty (Json.get? members "data")) "billingPeriodEnd").join
            fetchedAt := some now } := by
  have read : ∀ data name, readCount data name = intOrZero (Json.get? data name) := fun _ _ => rfl
  simp only [readPayload, success, Bool.not_true, Bool.false_eq_true, ↓reduceIte, read]
  cases Json.get? members "data" with
  | none =>
    simp only [orEmpty, getMember_obj, Option.bind_some]
    cases intOrZero (Json.get? [] "remainingCredits") <;>
      cases intOrZero (Json.get? [] "planCredits") <;> rfl
  | some data =>
    by_cases given : data.truthy = true
    · cases data with
      | obj inner =>
        simp only [orEmpty, given, ↓reduceIte, getMember_obj, Option.bind_some]
        cases intOrZero (Json.get? inner "remainingCredits") <;>
          cases intOrZero (Json.get? inner "planCredits") <;> rfl
      | _ => simp [orEmpty, given, getMember]
    · simp only [orEmpty, given, Bool.false_eq_true, ↓reduceIte, getMember_obj,
        Option.bind_some]
      cases intOrZero (Json.get? [] "remainingCredits") <;>
        cases intOrZero (Json.get? [] "planCredits") <;> rfl

omit [LinearOrder R] in
/-- The reading of the asynchronous probe. -/
theorem probe_reads :
    probeCreditFromFirecrawl foreign urls apiKeyId plaintextApiKey config requestId now
        (fun _ => reply) =
      (stripProviderVersionSuffix urls config.firecrawl.baseUrl).bind fun _ =>
        readProbe foreign apiKeyId now reply := by
  unfold probeCreditFromFirecrawl
  congr 1
  funext stripped
  cases reply with
  | timeout => rfl
  | failed text => rfl
  | response statusCode json text =>
    cases json with
    | none => rfl
    | some payload =>
      by_cases ok : statusCode = 200
      · simp only [ok, ↓reduceIte, readProbe]
        cases payload with
        | obj members =>
          by_cases success : (Json.get? members "success").any Json.truthy = true
          · rw [readPayload_data success]
            simp only [getMember_obj, success, Bool.not_true, Bool.false_eq_true, ↓reduceIte,
              Option.join_some]
            cases (getMember (orEmpty (Json.get? members "data")) "remainingCredits").bind
                intOrZero with
            | none => rfl
            | some remaining =>
              cases (getMember (orEmpty (Json.get? members "data")) "planCredits").bind
                  intOrZero <;> rfl
          · simp only [getMember_obj, success, Bool.not_false, ↓reduceIte, readPayload,
              Option.join_some]
            cases Json.get? members "error" <;> rfl
        | _ => rfl
      · simp only [ok, ↓reduceIte, readProbe]

/-- Given the same reply, the timeout of the request is the only difference. -/
theorem probes_agree :
    probeCreditFromFirecrawlSync foreign urls apiKeyId plaintextApiKey config requestId
        timeoutSeconds now (fun _ => reply) =
      probeCreditFromFirecrawl foreign urls apiKeyId plaintextApiKey config requestId now
        (fun _ => reply) := rfl

end

/-- The bodies a probe can read: an object that does not report a success, or
one whose data, if it has any, is an object with amounts that `int` takes. -/
def Legible (payload : Json) : Prop :=
  ∃ members, payload = .obj members ∧
    ((Json.get? members "success").any Json.truthy = true →
      ∃ data, orEmpty (Json.get? members "data") = .obj data ∧
        (intOrZero (Json.get? data "remainingCredits")).isSome = true ∧
        (intOrZero (Json.get? data "planCredits")).isSome = true)

theorem readPayload_isSome_iff (foreign : Foreign) (apiKeyId : Nat) (now : Instant) :
    (readPayload foreign apiKeyId now payload).isSome = true ↔ Legible payload := by
  cases payload with
  | obj members =>
    by_cases success : (Json.get? members "success").any Json.truthy = true
    · rw [readPayload_data success]
      constructor
      · intro read
        refine ⟨members, rfl, fun _ => ?_⟩
        cases held : orEmpty (Json.get? members "data") with
        | obj data =>
          simp only [held, getMember_obj, Option.bind_some] at read
          refine ⟨data, rfl, ?_⟩
          cases remaining : intOrZero (Json.get? data "remainingCredits") with
          | none => simp [remaining] at read
          | some _ =>
            cases plan : intOrZero (Json.get? data "planCredits") with
            | none => simp [remaining, plan] at read
            | some _ => exact ⟨rfl, rfl⟩
        | _ => simp [held, getMember] at read
      · rintro ⟨own, same, legible⟩
        cases same
        obtain ⟨data, held, remaining, plan⟩ := legible success
        obtain ⟨_, remaining⟩ := Option.isSome_iff_exists.mp remaining
        obtain ⟨_, plan⟩ := Option.isSome_iff_exists.mp plan
        simp [held, remaining, plan]
    · have read : (readPayload foreign apiKeyId now (.obj members)).isSome = true := by
        simp [readPayload, success]
      exact iff_of_true read ⟨members, rfl, fun holds => absurd holds success⟩
  | _ => simp [readPayload, Legible]

theorem readProbe_ok_iff (foreign : Foreign) (apiKeyId : Nat) (now : Instant) :
    (∃ result, readProbe foreign apiKeyId now reply = .ok result) ↔
      ∀ payload text, reply = .response 200 (some payload) text → Legible payload := by
  cases reply with
  | timeout => simp [readProbe]
  | failed text => simp [readProbe]
  | response statusCode json text =>
    by_cases ok : statusCode = 200
    · subst ok
      cases json with
      | none => simp [readProbe]
      | some payload =>
        simp only [readProbe, ↓reduceIte, ProbeReply.response.injEq, Option.some.injEq, true_and]
        constructor
        · rintro ⟨result, read⟩ _ _ ⟨rfl, _⟩
          apply (readPayload_isSome_iff foreign apiKeyId now).mp
          cases found : readPayload foreign apiKeyId now payload with
          | none => simp [found] at read
          | some _ => rfl
        · intro legible
          obtain ⟨result, read⟩ := Option.isSome_iff_exists.mp
            ((readPayload_isSome_iff foreign apiKeyId now).mpr (legible payload text ⟨rfl, rfl⟩))
          exact ⟨result, by rw [read]⟩
    · have read : ∃ result, readProbe foreign apiKeyId now (.response statusCode json text) =
          .ok result := by
        simp only [readProbe, ok, ↓reduceIte]
        split
        · exact ⟨_, rfl⟩
        · split <;> exact ⟨_, rfl⟩
      refine iff_of_true read fun payload _ same => ?_
      cases same
      exact absurd rfl ok

section
variable {R : Type} [Field R] [LinearOrder R]

theorem stripProviderVersionSuffix_ok_iff :
    (∃ stripped, stripProviderVersionSuffix urls baseUrl = .ok stripped) ↔
      ∃ parts, urls.urlsplit (rstripSlash baseUrl) = .ok parts := by
  simp only [stripProviderVersionSuffix]
  cases urls.urlsplit (rstripSlash baseUrl) with
  | error text => simp [Except.map]
  | ok parts => exact iff_of_true ⟨_, rfl⟩ ⟨parts, rfl⟩

/-- The twins always agree, and they return exactly when the configured base
URL can be split and a body of a reply of status 200 is one they can read. -/
theorem probes_return_iff (foreign : Foreign) (urls : UrlLibrary) (apiKeyId : Nat)
    (plaintextApiKey : String) (config : AppConfig R) (requestId : String)
    (timeoutSeconds : Option R) (now : Instant) (reply : ProbeReply) :
    (∃ result,
      probeCreditFromFirecrawl foreign urls apiKeyId plaintextApiKey config requestId now
        (fun _ => reply) = .ok result ∧
      probeCreditFromFirecrawlSync foreign urls apiKeyId plaintextApiKey config requestId
        timeoutSeconds now (fun _ => reply) = .ok result) ↔
    (∃ parts, urls.urlsplit (rstripSlash config.firecrawl.baseUrl) = .ok parts) ∧
      ∀ payload text, reply = .response 200 (some payload) text → Legible payload := by
  simp only [probes_agree, and_self, probe_reads, ← stripProviderVersionSuffix_ok_iff]
  rw [← readProbe_ok_iff foreign apiKeyId now]
  cases stripProviderVersionSuffix urls config.firecrawl.baseUrl with
  | error text => simp [Except.bind]
  | ok stripped => simp [Except.bind]

/-- The library's functions on a URL of a host alone, after `https://`. -/
def hostUrls : UrlLibrary :=
  { urlsplit := fun url => .ok ⟨"https", String.ofList (url.toList.drop 8), ""⟩
    urlunsplit := fun parts => parts.scheme ++ "://" ++ parts.netloc ++ parts.path }

/-- A reply of status 200 whose body is the empty list. -/
theorem list_body_raises :
    ¬ ∃ result,
      probeCreditFromFirecrawl openCipher hostUrls 1 "secret" ({} : AppConfig ℚ) "r" 0
        (fun _ => .response 200 (some (.arr [])) "[]") = .ok result ∧
      probeCreditFromFirecrawlSync openCipher hostUrls 1 "secret" ({} : AppConfig ℚ) "r" none 0
        (fun _ => .response 200 (some (.arr [])) "[]") = .ok result := by
  rintro ⟨result, returned, _⟩
  rw [probe_reads] at returned
  cases returned

end

end FcamGateway.Credits
