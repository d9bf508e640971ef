import Meterly.Auth.RateLimit
import Meterly.Model.DailyDate
import Meterly.Model.Logging
import Meterly.Text.Headers

/-! # The stack that `create_app` builds

An application takes the scope of a request to a response or raises. A middleware is a function of the
application inside of it. The state in the scope is shared by all layers, also by those outside of the one
that sets it, and also when something is raised. The exception handlers stand inside of the user's
middleware, and the handler of `Exception` outside of it. Header names are in lower case.
-/

namespace Meterly

structure HttpRequest where
  method : String
  path : String
  headers : Headers String String
deriving DecidableEq, Repr

/-- The content of a response: the error envelope, or anything else. -/
inductive ResponseBody where
  | envelope (code message requestId : String)
  | content (text : String)
deriving DecidableEq, Repr

structure HttpResponse where
  statusCode : ℕ
  headers : Headers String String
  body : ResponseBody
deriving DecidableEq, Repr

/-- The scope of a request, with `state.request_id` once it is set. -/
structure RequestScope where
  request : HttpRequest
  requestId : Option String
deriving DecidableEq, Repr

/-- A computation on the scope; what it raises is what no exception handler inside of it answers. -/
abbrev Handling (Unexpected : Type) := ExceptT Unexpected (StateM RequestScope)

abbrev App (Unexpected : Type) := Handling Unexpected HttpResponse

/-- What an endpoint with its dependencies comes to. -/
inductive EndpointOutcome (Unexpected : Type) where
  | response (statusCode : ℕ) (headers : Headers String String) (content : String)
  | http (exception : HttpException)
  | requestValidation (errorCount : ℕ)
  | unexpected (error : Unexpected)

variable {Unexpected : Type}

/-! ## `errors.py` -/

/-- `_STATUS_TO_CODE` -/
def statusToCode : List (ℕ × String) :=
  [(400, "bad_request"), (401, "unauthorized"), (403, "forbidden"), (404, "not_found"), (409, "conflict"),
    (413, "payload_too_large"), (422, "validation_failed"), (429, "rate_limited")]

/-- `_request_id` -/
def RequestScope.requestIdOrUnknown (scope : RequestScope) : String := scope.requestId.getD "unknown"

/-- A `JSONResponse` around the error envelope. -/
def envelopeResponse (scope : RequestScope) (statusCode : ℕ) (code message : String) (headers : Headers String String) :
    HttpResponse :=
  ⟨statusCode, headers ++ [("content-type", "application/json")], .envelope code message scope.requestIdOrUnknown⟩

/-- `handle_validation_error` -/
def handleValidationError (scope : RequestScope) : HttpResponse :=
  envelopeResponse scope 422 "validation_failed" "the request failed validation" []

/-- `handle_http_exception` -/
def handleHttpException (scope : RequestScope) (exception : HttpException) : HttpResponse :=
  let code := (exception.appCode.filter fun code => code ≠ "").getD
    ((statusToCode.lookup exception.statusCode).getD "error")
  envelopeResponse scope exception.statusCode code exception.detail
    (exception.headers.map fun header => (lower header.1, header.2))

/-- The response of `handle_unexpected_error`. -/
def unexpectedErrorResponse (scope : RequestScope) : HttpResponse :=
  envelopeResponse scope 500 "internal" "an internal error occurred" []

/-- The layer of the exception handlers, around the routes. -/
def exceptionMiddleware (endpoint : HttpRequest → EndpointOutcome Unexpected) : Handling Unexpected HttpResponse := do
  let scope ← get
  match endpoint scope.request with
  | .response statusCode headers content => return ⟨statusCode, headers, .content content⟩
  | .http exception => return handleHttpException scope exception
  | .requestValidation _ => return handleValidationError scope
  | .unexpected error => throw error

/-! ## `middleware.py` -/

/-- `_SECURITY_HEADERS` -/
def securityHeaders : Headers String String :=
  [("strict-transport-security", "max-age=63072000; includeSubDomains"), ("x-content-type-options", "nosniff"),
    ("content-security-policy", "default-src 'none'"), ("x-frame-options", "DENY"),
    ("referrer-policy", "strict-origin-when-cross-origin"),
    ("permissions-policy", "geolocation=(), camera=(), microphone=()")]

/-- `request.url.path.startswith("/v1/usage")` -/
def HttpRequest.readsUsage (request : HttpRequest) : Bool := "/v1/usage".toList.isPrefixOf request.path.toList

/-- `SecurityHeadersMiddleware` -/
def securityHeadersMiddleware (callNext : App Unexpected) : Handling Unexpected HttpResponse := do
  let scope ← get
  let response ← callNext
  let headers := response.headers.setAll securityHeaders
  let headers := if scope.request.readsUsage then headers.set "cache-control" "no-store" else headers
  return { response with headers := headers }

/-- `int` of a header: at most 4300 digits with single underscores between them, behind a sign, within blanks. -/
def parseInt (text : String) : Option ℤ :=
  let blank (c : Char) : Bool :=
    c = ' ' || ('\t' ≤ c && c ≤ '\r') || ('\x1c' ≤ c && c ≤ '\x1f') || c = '\x85' || c = '\xa0'
  let trimmed := ((text.toList.dropWhile blank).reverse.dropWhile blank).reverse
  let (negative, digits) := match trimmed with
    | '-' :: rest => (true, rest)
    | '+' :: rest => (false, rest)
    | digits => (false, digits)
  let groups := digits.splitOn '_'
  if groups.flatten.length ≤ 4300 ∧ groups.all fun group => group ≠ [] && group.all Char.isDigit then
    let value : ℤ := groups.flatten.foldl (fun n c => 10 * n + (c.toNat - '0'.toNat)) 0
    some (if negative then -value else value)
  else none

/-- `BodySizeLimitMiddleware` refuses a request by its `Content-Length`. -/
def HttpRequest.tooLarge (maxBodySizeBytes : ℤ) (request : HttpRequest) : Prop :=
  ∃ size ∈ (request.headers.get "content-length").bind parseInt, size > maxBodySizeBytes

instance (maxBodySizeBytes : ℤ) (request : HttpRequest) : Decidable (request.tooLarge maxBodySizeBytes) :=
  inferInstanceAs (Decidable (∃ size ∈ (_ : Option ℤ), _))

/-- `BodySizeLimitMiddleware` -/
def bodySizeLimitMiddleware (maxBodySizeBytes : ℤ) (callNext : App Unexpected) : Handling Unexpected HttpResponse := do
  let scope ← get
  if scope.request.tooLarge maxBodySizeBytes then
    return envelopeResponse scope 413 "payload_too_large" "request body exceeds the maximum allowed size" []
  else callNext

/-- `_TIER1_EXEMPT_PATHS` -/
def tier1ExemptPaths : List String := ["/health"]

/-- `str(max(1, int(decision.retry_after_seconds) or 1))` -/
def RateLimitDecision.retryAfter (decision : RateLimitDecision) : String :=
  let seconds := truncate decision.retryAfterSeconds
  toString (max 1 (if seconds = 0 then 1 else seconds))

/-- `Tier1EdgeThrottleMiddleware`, given what its limiter decides, if it does not raise. -/
def tier1EdgeThrottleMiddleware (limiter : HttpRequest → Option RateLimitDecision) (callNext : App Unexpected) :
    Handling Unexpected HttpResponse := do
  let scope ← get
  if scope.request.path ∈ tier1ExemptPaths then callNext
  else match limiter scope.request with
    | none => callNext
    | some decision =>
      if decision.allowed then callNext
      else return envelopeResponse scope 429 "rate_limited" "too many requests" [("retry-after", decision.retryAfter)]

/-- `CORSMiddleware`: it answers a preflight request itself, and otherwise works on the headers. -/
structure CorsMiddleware where
  preflight : HttpRequest → Option (ℕ × Headers String String × String)
  decorate : HttpRequest → Headers String String → Headers String String

/-- The layer of `CORSMiddleware`. -/
def corsMiddleware (cors : CorsMiddleware) (callNext : App Unexpected) : Handling Unexpected HttpResponse := do
  let scope ← get
  match cors.preflight scope.request with
  | some (statusCode, headers, text) => return ⟨statusCode, headers, .content text⟩
  | none =>
    let response ← callNext
    return { response with headers := cors.decorate scope.request response.headers }

/-! ## `logging/middleware.py` -/

/-- `RequestContextMiddleware` -/
def requestContextMiddleware (requestId : String) (callNext : App Unexpected) : Handling Unexpected HttpResponse := do
  modify fun scope => { scope with requestId := some requestId }
  let response ← callNext
  return { response with headers := response.headers.set "x-request-id" requestId }

/-! ## `main.py` -/

/-- What `create_app` and the process around it are configured with; the id is that of the request. -/
structure AppConfig where
  maxBodySizeBytes : ℤ
  cors : CorsMiddleware
  limiter : HttpRequest → Option RateLimitDecision
  requestId : String

/-- `add_middleware`: the layer that is added last comes first. -/
def addMiddleware (middleware : App Unexpected → App Unexpected) (layers : List (App Unexpected → App Unexpected)) :
    List (App Unexpected → App Unexpected) := middleware :: layers

/-- The middleware that `create_app` registers, in the order of its calls. -/
def userMiddleware (config : AppConfig) : List (App Unexpected → App Unexpected) :=
  [] |> addMiddleware (tier1EdgeThrottleMiddleware config.limiter)
    |> addMiddleware (bodySizeLimitMiddleware config.maxBodySizeBytes)
    |> addMiddleware (corsMiddleware config.cors)
    |> addMiddleware securityHeadersMiddleware
    |> addMiddleware (requestContextMiddleware config.requestId)

/-- `ServerErrorMiddleware` with `handle_unexpected_error`; the error is raised again behind the response. -/
def serverErrorMiddleware (callNext : App Unexpected) (scope : RequestScope) : HttpResponse :=
  match (ExceptT.run callNext).run scope with
  | (.ok response, _) => response
  | (.error _, scope) => unexpectedErrorResponse scope

/-- The response that leaves the application of `create_app`. -/
def createApp (config : AppConfig) (endpoint : HttpRequest → EndpointOutcome Unexpected) (request : HttpRequest) :
    HttpResponse :=
  serverErrorMiddleware
    ((userMiddleware config).foldr (fun middleware app => middleware app) (exceptionMiddleware endpoint))
    ⟨request, none⟩

end Meterly
