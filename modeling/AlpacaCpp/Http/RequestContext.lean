import AlpacaCpp.Core.Json
import AlpacaCpp.Core.Query

/-!
# `request_context`: the one place every REST call passes through

URL joining, headers, the retry loop, JSON parsing and the mapping of error bodies onto exceptions
(`core/src/detail/request_context.cpp`).

The transport is a function `serve` from the number of requests sent so far and the request to the
answer, so a statement about every `serve` is one about every sequence of answers. A call threads a
`Log` of what it did to the outside world: reservations and 429 notices at the limiter, exchanges
with the server, sleeps. An exception is an `Error`, and the log up to it is kept.

`attemptLoop` is the `for` loop of `execute_raw`, by recursion on the attempts that are left; it leaves the
loop as the source does, by returning a body or by throwing. The budget of the policy is a `uint32_t` and
may be 0, which still makes one attempt. `throwApiError` builds the exception of a failed request, with the
status and the body as they came, and the code and the message if the body is an object that has them.

The body of a success is parsed outside the loop, so a body that is no JSON is not asked for again. A
blank one is read as null: an answer with no content is no error.
-/

namespace Alpaca

/-! ### Configuration -/

/-- `credentials` -/
structure Credentials where
  apiKeyId : Bytes := []
  apiSecretKey : Bytes := []
  oauthToken : Bytes := []

namespace Credentials

/-- `uses_oauth` -/
def usesOauth (c : Credentials) : Bool := !c.oauthToken.isEmpty

/-- `trading_headers` -/
def tradingHeaders (c : Credentials) : List (Bytes × Bytes) :=
  if c.usesOauth then [(bytes "Authorization", bytes "Bearer " ++ c.oauthToken)]
  else [(bytes "APCA-API-KEY-ID", c.apiKeyId), (bytes "APCA-API-SECRET-KEY", c.apiSecretKey)]

/-- `basic_auth_headers`; `base64Encode` is OpenSSL's encoder. -/
def basicAuthHeaders (base64Encode : Bytes → Bytes) (c : Credentials) : List (Bytes × Bytes) :=
  if c.usesOauth then [(bytes "Authorization", bytes "Bearer " ++ c.oauthToken)]
  else [(bytes "Authorization",
    bytes "Basic " ++ base64Encode (c.apiKeyId ++ byte ':' :: c.apiSecretKey))]

end Credentials

/-- `auth_scheme` -/
inductive AuthScheme where
  | apiKey | basic
  deriving DecidableEq

/-- `retry_policy` -/
structure RetryPolicy where
  /-- Total attempts including the first; 1 disables retrying. -/
  maxAttempts : UInt32 := 3
  /-- Doubled after each failed attempt. -/
  initialBackoffMs : UInt32 := 250
  maxBackoffMs : UInt32 := 4000

/-- `request_context`, and the third-party functions it calls. -/
structure RequestContext (D : Type) where
  baseUrl : Bytes
  credentials : Credentials := {}
  scheme : AuthScheme := .apiKey
  retry : RetryPolicy := {}
  json : JsonLibrary D
  base64Encode : Bytes → Bytes
  /-- `get<int32_t>()` of a JSON floating-point number. -/
  floatToInt32 : D → ℤ

/-- `verb` -/
inductive Verb where
  | get | post | put | patch | del
  deriving DecidableEq

/-! ### The wire -/

/-- One HTTP request. -/
structure Request where
  verb : Verb
  url : Bytes
  payload : Bytes
  headers : List (Bytes × Bytes)
  deriving DecidableEq

/-- `Http::Response`; `isOk` is the transport's own verdict on the status. -/
structure Response where
  isOk : Bool
  resultCode : ℕ
  reason : Bytes := []
  resultText : Bytes := []
  deriving DecidableEq

/-- What a call does to the outside world. -/
inductive Event where
  /-- `limiter_.acquire()` -/
  | acquire
  /-- A request and the answer to it. -/
  | exchange (request : Request) (response : Response)
  /-- `limiter_.notify_rate_limited(seconds)` -/
  | notifyRateLimited (seconds : UInt32)
  /-- `sleep_for(ms)` -/
  | sleep (ms : ℕ)

abbrev Log := List Event

/-- The exchanges of a log, oldest first. -/
def Log.exchanges (log : Log) : List (Request × Response) :=
  log.filterMap fun
    | .exchange request response => some (request, response)
    | _ => none

/-- The requests of a log, oldest first. -/
def Log.requests (log : Log) : List Request := log.exchanges.map Prod.fst

/-- The exceptions that reach a caller. -/
inductive Error where
  /-- `api_error` -/
  | api (status : ℕ) (code : ℤ) (message body : Bytes)
  /-- `parse_error` -/
  | parse (what body : Bytes)
  /-- An exception of the JSON library. -/
  | json (what : Bytes)

/-- An exception of the JSON library that nothing catches. -/
def liftJson {α : Type} : Except Bytes α → Except Error α
  | .ok a => .ok a
  | .error what => .error (.json what)

/-! ### Bodies and errors -/

/-- `is_blank` -/
def isBlank (s : Bytes) : Bool := s.all isSpace

/-- `is_retryable_status` -/
def isRetryableStatus (status : ℕ) : Prop := status = 429 ∨ (status ≥ 500 ∧ status < 600)

instance : DecidablePred isRetryableStatus := fun status ↦
  inferInstanceAs (Decidable (status = 429 ∨ (status ≥ 500 ∧ status < 600)))

/-- The loop of `next_backoff_ms`: `left` doublings to go. -/
def doubleBackoff (maxBackoffMs : ℕ) : (left backoff : ℕ) → ℕ
  | 0, backoff => min backoff maxBackoffMs
  | left + 1, backoff =>
    let backoff := u64 (backoff * 2)
    if backoff ≥ maxBackoffMs then maxBackoffMs else doubleBackoff maxBackoffMs left backoff

/-- `next_backoff_ms` -/
def nextBackoffMs (policy : RetryPolicy) (attempt : ℕ) : ℕ :=
  doubleBackoff policy.maxBackoffMs.toNat (attempt - 1) policy.initialBackoffMs.toNat

variable {D : Type}

/-- `parse_body` -/
def parseBody (json : JsonLibrary D) (body : Bytes) : Except Error (Json D) :=
  if body = [] ∨ isBlank body then .ok .null
  else
    match json.parse body with
    | .ok j => .ok j
    | .error what => .error (.parse what body)

/-- The code and message `throw_api_error` finds in an error body. -/
def errorDetails (ctx : RequestContext D) (body : Bytes) : ℤ × Bytes :=
  if body = [] ∨ isBlank body then (0, [])
  else
    match ctx.json.parse body with
    | .ok (.obj members) =>
      let j : Json D := .obj members
      let code := match j.member? (bytes "code") with
        | some (.int n) => i32 n
        | some (.float x) => ctx.floatToInt32 x
        | _ => 0
      let message := match j.member? (bytes "message") with
        | some (.str s) => s
        | _ => match j.member? (bytes "error") with
          | some (.str s) => s
          | _ => []
      (code, message)
    | _ => (0, [])

/-- `throw_api_error` -/
def throwApiError (ctx : RequestContext D) (status : ℕ) (reason body : Bytes) : Error :=
  let (code, message) := errorDetails ctx body
  .api status code (if message = [] then if reason = [] then body else reason else message) body

/-- Whatever code and message the body has, the exception carries the status and the body themselves. -/
theorem throwApiError_eq (ctx : RequestContext D) (status : ℕ) (reason body : Bytes) :
    throwApiError ctx status reason body =
      .api status (errorDetails ctx body).1
        (if (errorDetails ctx body).2 = [] then if reason = [] then body else reason else (errorDetails ctx body).2)
        body := rfl

/-! ### Requests -/

namespace RequestContext

/-- `build_url` -/
def buildUrl (ctx : RequestContext D) (path : Bytes) (query : QueryBuilder) : Bytes :=
  ctx.baseUrl ++ (if path ≠ [] ∧ path.head? ≠ some (byte '/') then [byte '/'] else []) ++ path ++
    query.str

/-- `build_headers` -/
def buildHeaders (ctx : RequestContext D) (withBody : Bool) : List (Bytes × Bytes) :=
  (match ctx.scheme with
    | .basic => ctx.credentials.basicAuthHeaders ctx.base64Encode
    | .apiKey => ctx.credentials.tradingHeaders) ++
  (bytes "Accept", bytes "application/json") ::
    if withBody then [(bytes "Content-Type", bytes "application/json")] else []

/-- The request `execute_raw` sends: the same one at every attempt. -/
def request (ctx : RequestContext D) (v : Verb) (path : Bytes) (query : QueryBuilder)
    (payload : Option Bytes) : Request where
  verb := v
  url := ctx.buildUrl path query
  payload := if v = .get then [] else payload.getD []
  headers := ctx.buildHeaders (match v with
    | .get => false
    | .del => payload.isSome
    | _ => true)

variable (serve : ℕ → Request → Response)

/-- The loop of `execute_raw`, with `attempt` attempts behind it. -/
def attemptLoop (ctx : RequestContext D) (req : Request) (attempt : ℕ) (log : Log) :
    Except Error Bytes × Log :=
  let response := serve log.requests.length req
  let log := log ++ [.acquire, .exchange req response]
  if response.isOk then (.ok response.resultText, log)
  else
    let log := log ++ if response.resultCode = 429 then [.notifyRateLimited 1] else []
    if isRetryableStatus response.resultCode ∧ attempt + 1 < ctx.retry.maxAttempts.toNat then
      ctx.attemptLoop req (attempt + 1) (log ++ [.sleep (nextBackoffMs ctx.retry (attempt + 1))])
    else (.error (throwApiError ctx response.resultCode response.reason response.resultText), log)
termination_by ctx.retry.maxAttempts.toNat - attempt

/-- `execute_raw` -/
def executeRaw (ctx : RequestContext D) (v : Verb) (path : Bytes) (query : QueryBuilder)
    (body : Option (Json D)) (log : Log) : Except Error Bytes × Log :=
  match body with
  | none => ctx.attemptLoop serve (ctx.request v path query none) 0 log
  | some j =>
    match ctx.json.dump j with
    | .error what => (.error (.json what), log)
    | .ok payload => ctx.attemptLoop serve (ctx.request v path query (some payload)) 0 log

/-- `execute` -/
def execute (ctx : RequestContext D) (v : Verb) (path : Bytes) (query : QueryBuilder)
    (body : Option (Json D)) (log : Log) : Except Error (Json D) × Log :=
  match ctx.executeRaw serve v path query body log with
  | (.ok text, log) => (parseBody ctx.json text, log)
  | (.error e, log) => (.error e, log)

/-- `get` -/
def get (ctx : RequestContext D) (path : Bytes) (query : QueryBuilder) (log : Log) :
    Except Error (Json D) × Log :=
  ctx.execute serve .get path query none log

/-- `post` -/
def post (ctx : RequestContext D) (path : Bytes) (body : Json D) (log : Log) :
    Except Error (Json D) × Log :=
  ctx.execute serve .post path {} (some body) log

end RequestContext

end Alpaca
