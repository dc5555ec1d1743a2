import AlpacaCpp.Http.RequestContext

/-!
# What one call puts on the wire

The retry loop is followed once, in `attemptLoop_spec`: a call sends the same request some number of
times, every answer but the last is a retryable failure, and the last answer decides the result.
`executeRaw_spec` and `get_of_answer` are what the callers of `request_context` use.

One round of the loop has two outcomes (`attemptLoop_cases`), and no later proof looks into it: either the
answer is a failure to be retried and there is budget left, and the loop goes on behind a back-off, or the
result is that of this answer. `Attempts` is the relation between the log of a call and the answer its
result was made from.

A page loop needs less: when the first answer that is not a retryable failure comes within the budget, the
call gives what that answer says, whatever failures there were before it (`get_of_answer`,
`get_of_second_answer`).
-/

namespace Alpaca

variable {D : Type}

/-! ### Logs -/

namespace Log

@[simp] theorem exchanges_append (log log' : Log) :
    exchanges (log ++ log') = log.exchanges ++ exchanges log' := List.filterMap_append

theorem exchanges_attempt (log : Log) (req : Request) (resp : Response) :
    exchanges (log ++ [.acquire, .exchange req resp]) = log.exchanges ++ [(req, resp)] := by
  rw [exchanges_append]
  rfl

theorem requests_attempt (log : Log) (req : Request) (resp : Response) :
    requests (log ++ [.acquire, .exchange req resp]) = log.requests ++ [req] := by
  rw [requests, exchanges_attempt, List.map_append]
  rfl

/-- There are as many requests as exchanges. -/
theorem length_requests (log : Log) : log.requests.length = log.exchanges.length :=
  List.length_map _

end Log

/-! ### One round of the loop -/

/-- A 429. The transport's verdict is asked first, so a success is none. -/
def Response.isRateLimited (r : Response) : Bool := !r.isOk && r.resultCode == 429

namespace RequestContext

variable (serve : ℕ → Request → Response)

/-- One attempt: a reservation, the request and its answer, and the notice of a 429. -/
def attemptLog (req : Request) (r : Response) : Log :=
  [.acquire, .exchange req r] ++ if r.isRateLimited then [.notifyRateLimited 1] else []

/-- A round has one exchange, whether or not it was told to slow down. -/
theorem exchanges_attemptLog (req : Request) (r : Response) :
    (attemptLog req r).exchanges = [(req, r)] := by
  rw [attemptLog]
  split <;> rfl

theorem exchanges_append_attemptLog (log : Log) (req : Request) (r : Response) :
    (log ++ attemptLog req r).exchanges = log.exchanges ++ [(req, r)] := by
  rw [Log.exchanges_append, exchanges_attemptLog]

/-- The back-off behind an attempt is no exchange. -/
theorem exchanges_append_backoff (log : Log) (req : Request) (r : Response) (ms : ℕ) :
    (log ++ attemptLog req r ++ [Event.sleep ms]).exchanges = log.exchanges ++ [(req, r)] := by
  rw [Log.exchanges_append, exchanges_append_attemptLog]
  exact List.append_nil _

theorem length_requests_append_backoff (log : Log) (req : Request) (r : Response) (ms : ℕ) :
    (log ++ attemptLog req r ++ [Event.sleep ms]).requests.length = log.requests.length + 1 := by
  rw [Log.length_requests, exchanges_append_backoff, List.length_append, ← Log.length_requests,
    List.length_singleton]

/-- Whether the loop goes on behind an answer, after `attempt` attempts before it. -/
abbrev Retries (policy : RetryPolicy) (attempt : ℕ) (r : Response) : Prop :=
  r.isOk = false ∧ isRetryableStatus r.resultCode ∧ attempt + 1 < policy.maxAttempts.toNat

/-- What `execute_raw` makes of the answer it ends with. -/
def resultOf (ctx : RequestContext D) (last : Response) : Except Error Bytes :=
  if last.isOk then .ok last.resultText
  else .error (throwApiError ctx last.resultCode last.reason last.resultText)

/-- **One round of the loop**: an attempt, and then a back-off and the next round, or the end. -/
theorem attemptLoop_cases (ctx : RequestContext D) (req : Request) (attempt : ℕ) (log : Log) :
    Retries ctx.retry attempt (serve log.requests.length req) ∧
        ctx.attemptLoop serve req attempt log = ctx.attemptLoop serve req (attempt + 1)
          (log ++ attemptLog req (serve log.requests.length req) ++
            [.sleep (nextBackoffMs ctx.retry (attempt + 1))]) ∨
      ¬Retries ctx.retry attempt (serve log.requests.length req) ∧
        ctx.attemptLoop serve req attempt log = (ctx.resultOf (serve log.requests.length req),
          log ++ attemptLog req (serve log.requests.length req)) := by
  generalize hresp : serve log.requests.length req = r
  rw [attemptLoop, hresp]
  rcases hok : r.isOk with - | -
  · have hlog : attemptLog req r =
        [.acquire, .exchange req r] ++ if r.resultCode = 429 then [.notifyRateLimited 1] else [] := by
      simp [attemptLog, Response.isRateLimited, hok]
    simp only [Retries, hok, hlog, resultOf, Bool.false_eq_true, if_false, true_and, List.append_assoc]
    split
    case isTrue hretry => exact Or.inl ⟨hretry, rfl⟩
    case isFalse hstop => exact Or.inr ⟨hstop, rfl⟩
  · refine Or.inr ⟨fun h ↦ absurd (hok.symm.trans h.1) (by decide), ?_⟩
    simp [attemptLog, Response.isRateLimited, resultOf, hok]

/-! ### The whole loop -/

/-- The retry loop over one request: `failed` are the answers it retried on and `last` the one it
ended with. -/
structure Attempts (ctx : RequestContext D) (req : Request) (attempt : ℕ) (log : Log)
    (out : Except Error Bytes × Log) (failed : List Response) (last : Response) : Prop where
  exchanges_eq : out.2.exchanges = log.exchanges ++ (failed ++ [last]).map (req, ·)
  served : ∀ i r, (failed ++ [last])[i]? = some r → r = serve (log.requests.length + i) req
  retried : ∀ r ∈ failed, r.isOk = false ∧ isRetryableStatus r.resultCode
  length_lt : failed.length < max 1 (ctx.retry.maxAttempts.toNat - attempt)
  result_eq : out.1 = if last.isOk then .ok last.resultText
    else .error (throwApiError ctx last.resultCode last.reason last.resultText)

/-- One more failed answer in front of a run of the loop. -/
theorem Attempts.cons {ctx : RequestContext D} {req : Request} {attempt : ℕ} {log log' : Log}
    {out : Except Error Bytes × Log} {failed : List Response} {last : Response}
    (h : Attempts serve ctx req (attempt + 1) log' out failed last)
    (hlog : log'.exchanges = log.exchanges ++ [(req, serve log.requests.length req)])
    (hok : (serve log.requests.length req).isOk = false)
    (hretry : isRetryableStatus (serve log.requests.length req).resultCode)
    (hlt : attempt + 1 < ctx.retry.maxAttempts.toNat) :
    Attempts serve ctx req attempt log out (serve log.requests.length req :: failed) last where
  exchanges_eq := by
    rw [h.exchanges_eq, hlog, List.append_assoc]
    rfl
  served := by
    intro i r hr
    cases i with
    | zero => exact (Option.some_inj.1 hr).symm
    | succ i =>
      have hlen : log'.requests.length = log.requests.length + 1 := by
        rw [Log.length_requests, hlog, List.length_append, ← Log.length_requests]
        rfl
      have hr' := h.served i r hr
      rw [hlen] at hr'
      rw [hr', Nat.add_right_comm, Nat.add_assoc]
  retried := by
    intro r hr
    rcases List.mem_cons.1 hr with rfl | hr
    · exact ⟨hok, hretry⟩
    · exact h.retried r hr
  length_lt := by
    have hlen := h.length_lt
    rw [List.length_cons]
    omega
  result_eq := h.result_eq

/-- A run of the loop that ends with its first answer. -/
theorem Attempts.last {ctx : RequestContext D} {req : Request} {attempt : ℕ} {log : Log}
    {out : Except Error Bytes × Log} (hlog : out.2.exchanges =
      log.exchanges ++ [(req, serve log.requests.length req)])
    (hresult : out.1 = ctx.resultOf (serve log.requests.length req)) :
    Attempts serve ctx req attempt log out [] (serve log.requests.length req) where
  exchanges_eq := hlog
  served := by
    intro i r hr
    obtain ⟨rfl, rfl⟩ : i = 0 ∧ serve log.requests.length req = r := by
      simpa [List.getElem?_singleton, ite_eq_iff] using hr
    rfl
  retried := by simp
  length_lt := Nat.lt_of_lt_of_le Nat.one_pos (Nat.le_max_left _ _)
  result_eq := hresult

/-- **The retry loop**, from any attempt and any log. -/
theorem attemptLoop_spec (ctx : RequestContext D) (req : Request) (attempt : ℕ) (log : Log) :
    ∃ failed last, Attempts serve ctx req attempt log (ctx.attemptLoop serve req attempt log)
      failed last := by
  rcases ctx.attemptLoop_cases serve req attempt log with ⟨⟨hok, hretry, hlt⟩, hround⟩ | ⟨-, hround⟩
  · obtain ⟨failed, last, h⟩ := attemptLoop_spec ctx req (attempt + 1) _
    rw [hround]
    exact ⟨_, last, h.cons serve (exchanges_append_backoff log req _ _) hok hretry hlt⟩
  · rw [hround]
    exact ⟨[], _, .last serve (exchanges_append_attemptLog log req _) rfl⟩
termination_by ctx.retry.maxAttempts.toNat - attempt

/-- The answer the retry loop ends with, when `sent` requests have gone out before and `attempt`
attempts are behind it: the first success, the first failure that is not retryable, or the last answer
the policy allows. -/
def finalAnswer (policy : RetryPolicy) (req : Request) (sent attempt : ℕ) : Response :=
  let response := serve sent req
  if response.isOk = false ∧ isRetryableStatus response.resultCode ∧
      attempt + 1 < policy.maxAttempts.toNat then
    finalAnswer policy req (sent + 1) (attempt + 1)
  else response
termination_by policy.maxAttempts.toNat - attempt

/-- **The result of the retry loop** is decided by one answer. -/
theorem attemptLoop_result (ctx : RequestContext D) (req : Request) (attempt : ℕ) (log : Log) :
    (ctx.attemptLoop serve req attempt log).1 =
      ctx.resultOf (finalAnswer serve ctx.retry req log.requests.length attempt) := by
  rw [finalAnswer]
  rcases ctx.attemptLoop_cases serve req attempt log with ⟨hretry, hround⟩ | ⟨hstop, hround⟩
  · have hlt := hretry.2.2
    rw [if_pos hretry, hround, attemptLoop_result, length_requests_append_backoff]
  · rw [if_neg hstop, hround]
termination_by ctx.retry.maxAttempts.toNat - attempt

/-- **`execute_raw` sends one request repeatedly**, when the body can be printed, and nothing at all
when it cannot. -/
theorem executeRaw_spec (ctx : RequestContext D) (v : Verb) (path : Bytes) (query : QueryBuilder)
    (body : Option (Json D)) (log : Log) :
    (∃ what, ctx.executeRaw serve v path query body log = (.error (.json what), log)) ∨
      ∃ payload failed last, body.elim (payload = none) (fun j ↦ ∃ text,
          ctx.json.dump j = .ok text ∧ payload = some text) ∧
        Attempts serve ctx (ctx.request v path query payload) 0 log
          (ctx.executeRaw serve v path query body log) failed last := by
  cases body with
  | none =>
    obtain ⟨failed, last, h⟩ := ctx.attemptLoop_spec serve (ctx.request v path query none) 0 log
    exact Or.inr ⟨none, failed, last, rfl, h⟩
  | some j =>
    rw [executeRaw]
    cases hdump : ctx.json.dump j with
    | error what => exact Or.inl ⟨what, rfl⟩
    | ok text =>
      obtain ⟨failed, last, h⟩ :=
        ctx.attemptLoop_spec serve (ctx.request v path query (some text)) 0 log
      exact Or.inr ⟨some text, failed, last, ⟨text, hdump, rfl⟩, h⟩

/-- Parsing the body adds nothing to the log. -/
theorem execute_log (ctx : RequestContext D) (v : Verb) (path : Bytes) (query : QueryBuilder)
    (body : Option (Json D)) (log : Log) :
    (ctx.execute serve v path query body log).2 = (ctx.executeRaw serve v path query body log).2 := by
  rw [execute]
  rcases ctx.executeRaw serve v path query body log with ⟨- | text, log'⟩ <;> rfl

/-- **A `get` answered with success** is one exchange, and returns the parsed body. -/
theorem get_of_answer {ctx : RequestContext D} {path : Bytes} {query : QueryBuilder} {log : Log}
    {j : Json D}
    (hok : (serve log.requests.length (ctx.request .get path query none)).isOk = true)
    (hparse : parseBody ctx.json
      (serve log.requests.length (ctx.request .get path query none)).resultText = .ok j) :
    ctx.get serve path query log = (.ok j, log ++ [.acquire,
      .exchange (ctx.request .get path query none)
        (serve log.requests.length (ctx.request .get path query none))]) := by
  rw [get, execute, executeRaw, attemptLoop]
  simp only [hok, if_true, hparse]

/-- One answered with a failure that is retried, and then with success, is two. -/
theorem get_of_second_answer {ctx : RequestContext D} {path : Bytes} {query : QueryBuilder} {log : Log}
    {j : Json D}
    (hfails : (serve log.requests.length (ctx.request .get path query none)).isOk = false)
    (hstatus : isRetryableStatus (serve log.requests.length (ctx.request .get path query none)).resultCode)
    (hbudget : 1 < ctx.retry.maxAttempts.toNat)
    (hok : (serve (log.requests.length + 1) (ctx.request .get path query none)).isOk = true)
    (hparse : parseBody ctx.json
      (serve (log.requests.length + 1) (ctx.request .get path query none)).resultText = .ok j) :
    ∃ log', log'.requests = log.requests ++ [ctx.request .get path query none, ctx.request .get path query none] ∧
      ctx.get serve path query log = (.ok j, log') := by
  rw [get, execute, executeRaw, attemptLoop]
  simp only [hfails, Bool.false_eq_true, if_false, hstatus, Nat.zero_add, hbudget, and_self, if_true]
  rw [attemptLoop]
  generalize hlog : log ++ [Event.acquire, _] ++ _ ++ [_] = log₁
  have hrequests : log₁.requests = log.requests ++ [ctx.request .get path query none] := by
    rw [← hlog]
    split <;> simp [Log.requests, Log.exchanges]
  rw [show log₁.requests.length = log.requests.length + 1 by rw [hrequests, List.length_append]; rfl]
  simp only [hok, if_true, hparse]
  refine ⟨_, ?_, rfl⟩
  rw [Log.requests, Log.exchanges_append, List.map_append, ← Log.requests, hrequests, List.append_assoc]
  rfl

end RequestContext

end Alpaca
