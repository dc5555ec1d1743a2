import AlpacaCpp.Data.StockBars

/-!
# The blocking and the coroutine pipeline

`request_context` holds its retry loop, its verbs and its page loop twice: once blocking, once as
coroutines. A coroutine does more at the limiter: it polls `try_acquire`, and awaits a timer after every
refusal. What the limiter answers there is up to the clock and the other callers, so it is a parameter:
`refusals n` are the answers of `wait_time_ns` at the polls that are refused before the `n`-th request, and
the request goes out once they are used up.

`AsyncLog.observed` is the log of a coroutine as a blocking caller would have written it: polls that are
refused and the waits after them are dropped, the admitting poll is the reservation, and the back-off timer
is the sleep. `pipelines_agree` says that under it the two pipelines do the same and end the same.

The agreement is an equation of runs, for every server, every list of refusals and every state that the
callback of `paginate` keeps. It says nothing about the two pipelines at the same time; that is
`Http/Callers`.
-/

namespace Alpaca

variable {D : Type}

/-! ### The blocking verbs

The five verbs differ in their method and in whether they send a body. `paginate` is written with its
state explicit, since its callback may do anything between two pages, and may end the walk. -/

/-- `empty()` of a JSON value. -/
def Json.isEmpty : Json D → Bool
  | .null => true
  | .arr elems => elems.isEmpty
  | .obj members => members.isEmpty
  | _ => false

namespace RequestContext

variable (serve : ℕ → Request → Response)

/-- `get_raw` -/
def getRaw (ctx : RequestContext D) (path : Bytes) (query : QueryBuilder) (log : Log) :
    Except Error Bytes × Log :=
  ctx.executeRaw serve .get path query none log

/-- `put` -/
def put (ctx : RequestContext D) (path : Bytes) (body : Json D) (log : Log) :
    Except Error (Json D) × Log :=
  ctx.execute serve .put path {} (some body) log

/-- `patch` -/
def patch (ctx : RequestContext D) (path : Bytes) (body : Json D) (log : Log) :
    Except Error (Json D) × Log :=
  ctx.execute serve .patch path {} (some body) log

/-- `del` -/
def del (ctx : RequestContext D) (path : Bytes) (body : Json D) (log : Log) :
    Except Error (Json D) × Log :=
  ctx.execute serve .del path {} (if body.isEmpty then none else some body) log

end RequestContext

/-- A run of a page loop. What `on_page` captures by reference outlives an exception. -/
structure PageRun (β L : Type) where
  acc : β
  /-- How the loop ended; `none` while it is still running. -/
  ended : Option (Except Error Unit)
  log : L

/-- `paginate`, with what `on_page` has left behind and what it throws. -/
def paginateInto {β : Type} (serve : ℕ → Request → Response) (ctx : RequestContext D) (path : Bytes)
    (onPage : β → Json D → β × Option Error) : ℕ → QueryBuilder → β → Log → PageRun β Log
  | 0, _, acc, log => ⟨acc, none, log⟩
  | fuel + 1, query, acc, log =>
    match ctx.get serve path query log with
    | (.error e, log) => ⟨acc, some (.error e), log⟩
    | (.ok page, log) =>
      match onPage acc page with
      | (acc, some e) => ⟨acc, some (.error e), log⟩
      | (acc, none) =>
        match page.member? nextPageTokenKey with
        | none => ⟨acc, some (.ok ()), log⟩
        | some .null => ⟨acc, some (.ok ()), log⟩
        | some j =>
          match j.getString with
          | .error what => ⟨acc, some (.error (.json what)), log⟩
          | .ok token =>
            if token = [] then ⟨acc, some (.ok ()), log⟩
            else paginateInto serve ctx path onPage fuel (query.set pageTokenKey token) acc log

/-- What is left of a run when the accumulator is asked for at its end only. -/
def PageRun.outcome {β L : Type} (run : PageRun β L) : Option (Except Error β × L) :=
  run.ended.map fun ended ↦ (ended.map fun _ ↦ run.acc, run.log)

/-- `paginate` is the run, seen from its end. -/
theorem paginate_eq_outcome {β : Type} (serve : ℕ → Request → Response) (ctx : RequestContext D)
    (path : Bytes) (onPage : β → Json D → Except Error β) (fuel : ℕ) (query : QueryBuilder) (acc : β)
    (log : Log) :
    paginate serve ctx path onPage fuel query acc log =
      (paginateInto serve ctx path (fun acc page ↦
        match onPage acc page with
        | .ok acc => (acc, none)
        | .error e => (acc, some e)) fuel query acc log).outcome := by
  induction fuel generalizing query acc log with
  | zero => rfl
  | succ fuel ih =>
    rw [paginate, paginateInto]
    rcases ctx.get serve path query log with ⟨e | page, log'⟩
    · rfl
    · dsimp only
      rcases onPage acc page with e | acc'
      · rfl
      · -- a token that is not a string throws, and any other that is not empty goes on
        generalize page.member? nextPageTokenKey = next
        rcases next with - | j
        · rfl
        · cases j with
          | str token =>
            dsimp only [Json.getString]
            split
            · rfl
            · exact ih _ _ _
          | _ => rfl

/-! ### Coroutines

The same functions with `co_await`. What a coroutine adds to the log are its polls and its timers, and
both are events of their own, so that a log says which pipeline has written it. -/

/-- What a coroutine does to the outside world. -/
inductive AsyncEvent where
  /-- `limiter_.try_acquire()` and its answer. -/
  | tryAcquire (admitted : Bool)
  /-- The timer of the limiter loop. -/
  | wait (ns : ℕ)
  /-- A request and the answer to it. -/
  | exchange (request : Request) (response : Response)
  /-- `limiter_.notify_rate_limited(seconds)` -/
  | notifyRateLimited (seconds : UInt32)
  /-- The back-off timer. -/
  | backoff (ms : ℕ)

abbrev AsyncLog := List AsyncEvent

/-- An event as a blocking caller would have logged it. -/
def AsyncEvent.observed? : AsyncEvent → Option Event
  | .tryAcquire true => some .acquire
  | .tryAcquire false => none
  | .wait _ => none
  | .exchange request response => some (.exchange request response)
  | .notifyRateLimited seconds => some (.notifyRateLimited seconds)
  | .backoff ms => some (.sleep ms)

/-- A log as a blocking caller would have written it. -/
def AsyncLog.observed (log : AsyncLog) : Log := log.filterMap AsyncEvent.observed?

theorem AsyncLog.observed_append (log log' : AsyncLog) :
    observed (log ++ log') = log.observed ++ observed log' := List.filterMap_append

/-- The limiter loop: every refusal is followed by a timer of at least a millisecond. -/
def limiterLoop : (refusals : List ℕ) → AsyncLog → AsyncLog
  | [], log => log ++ [.tryAcquire true]
  | waitTimeNs :: refusals, log =>
    limiterLoop refusals (log ++ [.tryAcquire false, .wait (max waitTimeNs 1000000)])

/-- Whatever is refused on the way, the loop is one reservation. -/
theorem observed_limiterLoop (refusals : List ℕ) (log : AsyncLog) :
    (limiterLoop refusals log).observed = log.observed ++ [.acquire] := by
  induction refusals generalizing log with
  | nil => exact log.observed_append _
  | cons waitTimeNs refusals ih =>
    have hrefused : AsyncLog.observed [.tryAcquire false, .wait (max waitTimeNs 1000000)] = [] := rfl
    rw [limiterLoop, ih, AsyncLog.observed_append, hrefused, List.append_nil]

namespace RequestContext

/-- The request `async_execute_raw` sends. -/
def asyncRequest (ctx : RequestContext D) (v : Verb) (path : Bytes) (query : QueryBuilder)
    (payload : Option Bytes) : Request :=
  let url := ctx.buildUrl path query
  match v with
  | .get => ⟨.get, url, [], ctx.buildHeaders false⟩
  | .post => ⟨.post, url, payload.getD [], ctx.buildHeaders true⟩
  | .put => ⟨.put, url, payload.getD [], ctx.buildHeaders true⟩
  | .patch => ⟨.patch, url, payload.getD [], ctx.buildHeaders true⟩
  | .del => ⟨.del, url, payload.getD [], ctx.buildHeaders payload.isSome⟩

theorem asyncRequest_eq (ctx : RequestContext D) (v : Verb) (path : Bytes) (query : QueryBuilder)
    (payload : Option Bytes) :
    ctx.asyncRequest v path query payload = ctx.request v path query payload := by
  cases v <;> rfl

variable (serve : ℕ → Request → Response) (refusals : ℕ → List ℕ)

/-- The loop of `async_execute_raw`, with `attempt` attempts behind it. -/
def asyncAttemptLoop (ctx : RequestContext D) (req : Request) (attempt : ℕ) (log : AsyncLog) :
    Except Error Bytes × AsyncLog :=
  let sent := log.observed.requests.length
  let response := serve sent req
  let log := limiterLoop (refusals sent) log ++ [.exchange req response]
  if response.isOk then (.ok response.resultText, log)
  else
    let log := log ++ if response.resultCode = 429 then [.notifyRateLimited 1] else []
    if isRetryableStatus response.resultCode ∧ attempt + 1 < ctx.retry.maxAttempts.toNat then
      ctx.asyncAttemptLoop req (attempt + 1)
        (log ++ [.backoff (nextBackoffMs ctx.retry (attempt + 1))])
    else (.error (throwApiError ctx response.resultCode response.reason response.resultText), log)
termination_by ctx.retry.maxAttempts.toNat - attempt

/-- `async_execute_raw` -/
def asyncExecuteRaw (ctx : RequestContext D) (v : Verb) (path : Bytes) (query : QueryBuilder)
    (body : Option (Json D)) (log : AsyncLog) : Except Error Bytes × AsyncLog :=
  match body with
  | none => ctx.asyncAttemptLoop serve refusals (ctx.asyncRequest v path query none) 0 log
  | some j =>
    match ctx.json.dump j with
    | .error what => (.error (.json what), log)
    | .ok payload =>
      ctx.asyncAttemptLoop serve refusals (ctx.asyncRequest v path query (some payload)) 0 log

/-- `async_execute` -/
def asyncExecute (ctx : RequestContext D) (v : Verb) (path : Bytes) (query : QueryBuilder)
    (body : Option (Json D)) (log : AsyncLog) : Except Error (Json D) × AsyncLog :=
  match ctx.asyncExecuteRaw serve refusals v path query body log with
  | (.ok text, log) => (parseBody ctx.json text, log)
  | (.error e, log) => (.error e, log)

/-- `async_get` -/
def asyncGet (ctx : RequestContext D) (path : Bytes) (query : QueryBuilder) (log : AsyncLog) :
    Except Error (Json D) × AsyncLog :=
  ctx.asyncExecute serve refusals .get path query none log

/-- `async_get_raw` -/
def asyncGetRaw (ctx : RequestContext D) (path : Bytes) (query : QueryBuilder) (log : AsyncLog) :
    Except Error Bytes × AsyncLog :=
  ctx.asyncExecuteRaw serve refusals .get path query none log

/-- `async_post` -/
def asyncPost (ctx : RequestContext D) (path : Bytes) (body : Json D) (log : AsyncLog) :
    Except Error (Json D) × AsyncLog :=
  ctx.asyncExecute serve refusals .post path {} (some body) log

/-- `async_put` -/
def asyncPut (ctx : RequestContext D) (path : Bytes) (body : Json D) (log : AsyncLog) :
    Except Error (Json D) × AsyncLog :=
  ctx.asyncExecute serve refusals .put path {} (some body) log

/-- `async_patch` -/
def asyncPatch (ctx : RequestContext D) (path : Bytes) (body : Json D) (log : AsyncLog) :
    Except Error (Json D) × AsyncLog :=
  ctx.asyncExecute serve refusals .patch path {} (some body) log

/-- `async_del` -/
def asyncDel (ctx : RequestContext D) (path : Bytes) (body : Json D) (log : AsyncLog) :
    Except Error (Json D) × AsyncLog :=
  let payload := if body.isEmpty then none else some body
  ctx.asyncExecute serve refusals .del path {} payload log

end RequestContext

/-- `async_paginate` -/
def asyncPaginate {β : Type} (serve : ℕ → Request → Response) (refusals : ℕ → List ℕ)
    (ctx : RequestContext D) (path : Bytes) (onPage : β → Json D → β × Option Error) :
    ℕ → QueryBuilder → β → AsyncLog → PageRun β AsyncLog
  | 0, _, acc, log => ⟨acc, none, log⟩
  | fuel + 1, query, acc, log =>
    match ctx.asyncGet serve refusals path query log with
    | (.error e, log) => ⟨acc, some (.error e), log⟩
    | (.ok page, log) =>
      match onPage acc page with
      | (acc, some e) => ⟨acc, some (.error e), log⟩
      | (acc, none) =>
        match page.member? nextPageTokenKey with
        | none => ⟨acc, some (.ok ()), log⟩
        | some .null => ⟨acc, some (.ok ()), log⟩
        | some j =>
          match j.getString with
          | .error what => ⟨acc, some (.error (.json what)), log⟩
          | .ok token =>
            if token = [] then ⟨acc, some (.ok ()), log⟩
            else asyncPaginate serve refusals ctx path onPage fuel (query.set pageTokenKey token) acc log

/-! ### The two pipelines

The proof follows the loops from the inside: the wait for the limiter, the attempt, the retry loop, the
parse, the walk over the pages. Each is observed as its counterpart, and the observation of a log is that
of its parts. -/

/-- A result, with the log as a blocking caller would have written it. -/
def observedRun {α : Type} (out : α × AsyncLog) : α × Log := (out.1, out.2.observed)

/-- The same of a page loop. -/
def PageRun.observed {β : Type} (run : PageRun β AsyncLog) : PageRun β Log :=
  ⟨run.acc, run.ended, run.log.observed⟩

namespace RequestContext

variable (serve : ℕ → Request → Response) (refusals : ℕ → List ℕ) (ctx : RequestContext D)

/-- **The two retry loops agree**, from any attempt and any log. -/
theorem observed_asyncAttemptLoop (req : Request) (attempt : ℕ) (log : AsyncLog) :
    observedRun (ctx.asyncAttemptLoop serve refusals req attempt log) =
      ctx.attemptLoop serve req attempt log.observed := by
  rw [asyncAttemptLoop, attemptLoop]
  have hround : ∀ resp, AsyncLog.observed
      (limiterLoop (refusals log.observed.requests.length) log ++ [.exchange req resp]) =
        log.observed ++ [.acquire, .exchange req resp] := by
    intro resp
    rw [AsyncLog.observed_append, observed_limiterLoop, List.append_assoc]
    rfl
  have hfailed : ∀ resp : Response, AsyncLog.observed
      (limiterLoop (refusals log.observed.requests.length) log ++ [.exchange req resp] ++
        if resp.resultCode = 429 then [.notifyRateLimited 1] else []) =
        log.observed ++ [.acquire, .exchange req resp] ++
          if resp.resultCode = 429 then [.notifyRateLimited 1] else [] := by
    intro resp
    rw [AsyncLog.observed_append, hround]
    split <;> rfl
  dsimp only
  split
  case isTrue hok => rw [observedRun, hround]
  case isFalse hok =>
    split
    case isTrue hretry =>
      rw [observed_asyncAttemptLoop, AsyncLog.observed_append, hfailed]
      rfl
    case isFalse hstop => rw [observedRun, hfailed]
termination_by ctx.retry.maxAttempts.toNat - attempt

/-- **The same attempts**, with the polls and the timers left out. -/
theorem observed_asyncExecuteRaw (v : Verb) (path : Bytes) (query : QueryBuilder)
    (body : Option (Json D)) (log : AsyncLog) :
    observedRun (ctx.asyncExecuteRaw serve refusals v path query body log) =
      ctx.executeRaw serve v path query body log.observed := by
  rcases body with - | j
  · rw [asyncExecuteRaw, executeRaw, observed_asyncAttemptLoop, asyncRequest_eq]
  · rw [asyncExecuteRaw, executeRaw]
    rcases ctx.json.dump j with what | payload
    · rfl
    · exact (observed_asyncAttemptLoop serve refusals ctx _ 0 log).trans (by rw [asyncRequest_eq])

/-- The same answer, parsed. -/
theorem observed_asyncExecute (v : Verb) (path : Bytes) (query : QueryBuilder)
    (body : Option (Json D)) (log : AsyncLog) :
    observedRun (ctx.asyncExecute serve refusals v path query body log) =
      ctx.execute serve v path query body log.observed := by
  rw [asyncExecute, execute, ← observed_asyncExecuteRaw serve refusals]
  rcases ctx.asyncExecuteRaw serve refusals v path query body log with ⟨e | text, log'⟩ <;> rfl

end RequestContext

variable {β : Type} (serve : ℕ → Request → Response) (refusals : ℕ → List ℕ)

/-- **The two page loops agree**, as far as they have come. -/
theorem observed_asyncPaginate (ctx : RequestContext D) (path : Bytes)
    (onPage : β → Json D → β × Option Error) (fuel : ℕ) (query : QueryBuilder) (acc : β)
    (log : AsyncLog) :
    (asyncPaginate serve refusals ctx path onPage fuel query acc log).observed =
      paginateInto serve ctx path onPage fuel query acc log.observed := by
  induction fuel generalizing query acc log with
  | zero => rfl
  | succ fuel ih =>
    rw [asyncPaginate, paginateInto, RequestContext.get,
      ← ctx.observed_asyncExecute serve refusals, RequestContext.asyncGet]
    -- the first page of both is what one `execute` gives
    rcases ctx.asyncExecute serve refusals .get path query none log with ⟨e | page, log'⟩
    · rfl
    · dsimp only [observedRun]
      rcases onPage acc page with ⟨acc', - | e⟩
      · generalize page.member? nextPageTokenKey = next
        rcases next with - | j
        · rfl
        · cases j with
          | str token =>
            dsimp only [Json.getString]
            split
            · rfl
            · exact ih _ _ _
          | _ => rfl
      · rfl

/-- **The blocking and the coroutine pipelines agree**: whatever the server answers and whatever the limiter
refuses on the way, every verb and the page loop make the same requests, notices and back-offs in the same
order, call `on_page` with the same pages, and end with the same value or exception. -/
theorem pipelines_agree (ctx : RequestContext D) (log : AsyncLog) :
    (∀ v path query body, observedRun (ctx.asyncExecute serve refusals v path query body log) =
      ctx.execute serve v path query body log.observed) ∧
    (∀ path query, observedRun (ctx.asyncGet serve refusals path query log) =
      ctx.get serve path query log.observed) ∧
    (∀ path query, observedRun (ctx.asyncGetRaw serve refusals path query log) =
      ctx.getRaw serve path query log.observed) ∧
    (∀ path body, observedRun (ctx.asyncPost serve refusals path body log) =
        ctx.post serve path body log.observed ∧
      observedRun (ctx.asyncPut serve refusals path body log) = ctx.put serve path body log.observed ∧
      observedRun (ctx.asyncPatch serve refusals path body log) = ctx.patch serve path body log.observed ∧
      observedRun (ctx.asyncDel serve refusals path body log) = ctx.del serve path body log.observed) ∧
    ∀ path (onPage : β → Json D → β × Option Error) fuel query acc,
      (asyncPaginate serve refusals ctx path onPage fuel query acc log).observed =
        paginateInto serve ctx path onPage fuel query acc log.observed := by
  have hexecute : ∀ v path query body, observedRun (ctx.asyncExecute serve refusals v path query body log) =
      ctx.execute serve v path query body log.observed := fun v path query body ↦
    ctx.observed_asyncExecute serve refusals v path query body log
  refine ⟨hexecute, fun path query ↦ hexecute .get path query none, fun path query ↦ ?_,
    fun path body ↦ ⟨hexecute .post path {} (some body), hexecute .put path {} (some body),
      hexecute .patch path {} (some body), hexecute .del path {} _⟩, fun path onPage fuel query acc ↦ ?_⟩
  · exact ctx.observed_asyncExecuteRaw serve refusals .get path query none log
  · exact observed_asyncPaginate serve refusals ctx path onPage fuel query acc log

end Alpaca
