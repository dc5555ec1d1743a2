import AlpacaCpp.Http.Retry
import Mathlib.Order.Bounds.Basic

/-!
# How many attempts a call makes

`attemptLoop_log` is the whole log of a run of the retry loop, attempt by attempt: a reservation, the
request with its answer, the notice of a 429, and a back-off in front of every attempt but the first. The
number of attempts is the least element of `stops`: the budget of the policy, or the first answer that ends
the loop. `executeRaw_stops` counts what is in the log.

The answers are those the server gives to the same request, one after the other (`answersAfter`). What a
server answers may depend on how many requests it has had, so an attempt that failed shifts the sequence by
one (`answersAfter_backoff`), and the induction over the budget goes through for every server.

`StopsAfter` puts together what a call does in the world and what it gives back: as many exchanges,
reservations and notices as attempts, and the body of the last answer or an exception with its status and
its body. The message and the code in that exception are Alpaca's own, if there are any in the body.
-/

namespace Alpaca

variable {D : Type}

namespace Response

/-- An answer that ends the retry loop: a success, or a failure that is not retried. -/
def Final (r : Response) : Prop := r.isOk ∨ ¬isRetryableStatus r.resultCode

end Response

namespace Log

/-- How often `limiter_.acquire()` was called. -/
def reservations (log : Log) : ℕ :=
  log.countP fun
    | .acquire => true
    | _ => false

/-- How often `limiter_.notify_rate_limited()` was called. -/
def notices (log : Log) : ℕ :=
  log.countP fun
    | .notifyRateLimited _ => true
    | _ => false

@[simp] theorem reservations_append (log log' : Log) :
    reservations (log ++ log') = log.reservations + reservations log' := List.countP_append

@[simp] theorem notices_append (log log' : Log) :
    notices (log ++ log') = log.notices + notices log' := List.countP_append

end Log

namespace RequestContext

/-! ### The number of attempts -/

/-- The attempts the loop may stop after, counted from 1: the last one of the budget, and every one with a
final answer. -/
def stops (maxAttempts : ℕ) (answers : ℕ → Response) : Set ℕ :=
  {n | n = max 1 maxAttempts ∨ 1 ≤ n ∧ (answers (n - 1)).Final}

variable {maxAttempts : ℕ} {answers : ℕ → Response}

theorem one_le_of_mem_stops {n : ℕ} (hn : n ∈ stops maxAttempts answers) : 1 ≤ n := by
  rcases hn with rfl | hn
  · exact Nat.le_max_left _ _
  · exact hn.1

/-- The loop stops here. -/
theorem isLeast_stops_one (h : (answers 0).Final ∨ maxAttempts ≤ 1) :
    IsLeast (stops maxAttempts answers) 1 := by
  refine ⟨?_, fun _ ↦ one_le_of_mem_stops⟩
  rcases h with hfinal | hbudget
  · exact Or.inr ⟨le_rfl, hfinal⟩
  · exact Or.inl (Nat.max_eq_left hbudget).symm

/-- The loop goes on: the rest of the budget, and the rest of the answers. -/
theorem isLeast_stops_succ {N : ℕ} (hretry : ¬(answers 0).Final) (hbudget : 1 < maxAttempts)
    (hrest : IsLeast (stops (maxAttempts - 1) fun i ↦ answers (i + 1)) N) :
    IsLeast (stops maxAttempts answers) (N + 1) := by
  have hpos : 1 ≤ N := one_le_of_mem_stops hrest.1
  constructor
  · rcases hrest.1 with rfl | ⟨-, hfinal⟩
    · exact Or.inl (by omega)
    · refine Or.inr ⟨Nat.succ_pos N, ?_⟩
      rw [Nat.add_sub_cancel]
      exact Nat.sub_add_cancel hpos ▸ hfinal
  · intro n hn
    -- an attempt to stop after is not the first one, so it is one of the rest
    rcases n with - | - | n
    · exact absurd (one_le_of_mem_stops hn) (by omega)
    · rcases hn with hn | ⟨-, hfinal⟩
      · omega
      · exact absurd hfinal hretry
    · refine Nat.succ_le_succ (hrest.2 ?_)
      rcases hn with hn | ⟨-, hfinal⟩
      · exact Or.inl (by omega)
      · exact Or.inr ⟨Nat.succ_pos n, hfinal⟩

/-! ### The log of a run -/

/-- Attempts with the back-offs between them; `attempt` attempts are behind the first of them. -/
def attemptsLog (policy : RetryPolicy) (req : Request) (answers : ℕ → Response) (attempt N : ℕ) : Log :=
  (List.range N).flatMap fun i ↦
    (if i = 0 then [] else [.sleep (nextBackoffMs policy (attempt + i))]) ++ attemptLog req (answers i)

/-- The log of several attempts, from the front: the first attempt and the back-off behind it. -/
theorem attemptsLog_succ (policy : RetryPolicy) (req : Request) (answers : ℕ → Response)
    (attempt : ℕ) {N : ℕ} (hN : 1 ≤ N) :
    attemptsLog policy req answers attempt (N + 1) = attemptLog req (answers 0) ++
      (.sleep (nextBackoffMs policy (attempt + 1)) ::
        attemptsLog policy req (fun i ↦ answers (i + 1)) (attempt + 1) N) := by
  obtain ⟨N, rfl⟩ := Nat.exists_eq_succ_of_ne_zero (Nat.ne_of_gt hN)
  simp [attemptsLog, List.range_succ_eq_map, List.flatMap_map, Nat.add_assoc, Nat.add_comm 1,
    Function.comp_def]

variable (policy : RetryPolicy) (req : Request) (attempt N : ℕ)

/-- The last attempt, with the back-off in front of it. -/
theorem attemptsLog_concat :
    attemptsLog policy req answers attempt (N + 1) = attemptsLog policy req answers attempt N ++
      ((if N = 0 then [] else [.sleep (nextBackoffMs policy (attempt + N))]) ++
        attemptLog req (answers N)) := by
  rw [attemptsLog, attemptsLog, List.range_succ, List.flatMap_append, List.flatMap_singleton]

/-- Each attempt has sent the request once. -/
theorem exchanges_attemptsLog :
    (attemptsLog policy req answers attempt N).exchanges =
      (List.range N).map fun i ↦ (req, answers i) := by
  induction N with
  | zero => rfl
  | succ N ih =>
    rw [attemptsLog_concat, List.range_succ, List.map_append, Log.exchanges_append,
      Log.exchanges_append, ih, attemptLog]
    split <;> split <;> rfl

/-- Each attempt has reserved a slot. -/
theorem reservations_attemptsLog : (attemptsLog policy req answers attempt N).reservations = N := by
  induction N with
  | zero => rfl
  | succ N ih =>
    rw [attemptsLog_concat, Log.reservations_append, ih, Log.reservations_append, attemptLog]
    split <;> split <;> rfl

/-- Each 429 has been reported. -/
theorem notices_attemptsLog :
    (attemptsLog policy req answers attempt N).notices =
      (List.range N).countP fun i ↦ (answers i).isRateLimited := by
  induction N with
  | zero => rfl
  | succ N ih =>
    rw [attemptsLog_concat, Log.notices_append, ih, List.range_succ, List.countP_append,
      List.countP_singleton, Log.notices_append, attemptLog]
    split <;> split <;> rfl

/-! ### The retry loop -/

variable (serve : ℕ → Request → Response)

/-- The answers to one request sent over and over, behind a log. -/
def answersAfter (log : Log) (req : Request) (i : ℕ) : Response := serve (log.requests.length + i) req

/-- The log of a failed attempt, back-off included, puts one answer behind. -/
theorem answersAfter_backoff (log : Log) (req : Request) (r : Response) (ms : ℕ) :
    answersAfter serve (log ++ attemptLog req r ++ [Event.sleep ms]) req =
      fun i ↦ answersAfter serve log req (i + 1) := by
  funext i
  rw [answersAfter, answersAfter, length_requests_append_backoff, Nat.add_assoc, Nat.add_comm 1]

/-- **The retry loop, attempt by attempt**, from any attempt and any log. -/
theorem attemptLoop_log (ctx : RequestContext D) (req : Request) (attempt : ℕ) (log : Log) :
    ∃ N, IsLeast (stops (ctx.retry.maxAttempts.toNat - attempt) (answersAfter serve log req)) N ∧
      ctx.attemptLoop serve req attempt log =
        (ctx.resultOf (answersAfter serve log req (N - 1)),
          log ++ attemptsLog ctx.retry req (answersAfter serve log req) attempt N) := by
  have hfirst : answersAfter serve log req 0 = serve log.requests.length req := rfl
  rcases ctx.attemptLoop_cases serve req attempt log with ⟨⟨hok, hretry, hlt⟩, hround⟩ | ⟨hstop, hround⟩
  · -- a retryable failure within the budget: the rest of the run is one attempt shorter
    obtain ⟨N, hleast, hrun⟩ := ctx.attemptLoop_log req (attempt + 1)
      (log ++ attemptLog req (serve log.requests.length req) ++
        [.sleep (nextBackoffMs ctx.retry (attempt + 1))])
    rw [answersAfter_backoff] at hleast hrun
    have hpos : 1 ≤ N := one_le_of_mem_stops hleast.1
    have hgoes : ¬(answersAfter serve log req 0).Final := by
      rintro (hfinal | hfinal)
      · exact absurd (hok.symm.trans hfinal) (by decide)
      · exact hfinal hretry
    refine ⟨N + 1, isLeast_stops_succ hgoes (by omega) (by rwa [Nat.sub_sub]), ?_⟩
    rw [hround, hrun, attemptsLog_succ _ _ _ _ hpos, hfirst]
    simp only [List.append_assoc, List.cons_append, List.nil_append, Nat.add_sub_cancel,
      Nat.sub_add_cancel hpos]
  · have hends : (answersAfter serve log req 0).Final ∨ ctx.retry.maxAttempts.toNat - attempt ≤ 1 := by
      rw [hfirst]
      rcases hok : (serve log.requests.length req).isOk with - | -
      · rcases Decidable.not_and_iff_or_not.1 (fun h ↦ hstop ⟨hok, h⟩) with hfinal | hbudget
        · exact Or.inl (Or.inr hfinal)
        · exact Or.inr (by omega)
      · exact Or.inl (Or.inl hok)
    refine ⟨1, isLeast_stops_one hends, ?_⟩
    rw [hround, attemptsLog, List.range_one, List.flatMap_singleton, if_pos rfl, List.nil_append, hfirst]
termination_by ctx.retry.maxAttempts.toNat - attempt

/-- What `execute_raw` sends as the body: nothing, or the text of the JSON. -/
def payloadOf (ctx : RequestContext D) : (body : Option (Json D)) → Except Bytes (Option Bytes)
  | none => .ok none
  | some j => (ctx.json.dump j).map some

/-- What a call that stopped after `N` attempts has done. -/
structure StopsAfter (ctx : RequestContext D) (req : Request) (answers : ℕ → Response) (log : Log)
    (out : Except Error Bytes × Log) (N : ℕ) : Prop where
  isLeast : IsLeast (stops ctx.retry.maxAttempts.toNat answers) N
  exchanges_eq : out.2.exchanges = log.exchanges ++ (List.range N).map fun i ↦ (req, answers i)
  reservations_eq : out.2.reservations = log.reservations + N
  notices_eq : out.2.notices = log.notices + (List.range N).countP fun i ↦ (answers i).isRateLimited
  returns : (answers (N - 1)).isOk → out.1 = .ok (answers (N - 1)).resultText
  throws : ¬(answers (N - 1)).isOk → ∃ code message,
    out.1 = .error (.api (answers (N - 1)).resultCode code message (answers (N - 1)).resultText)

/-- **`execute_raw` stops after exactly as many requests as the policy and the answers say**, with one
reservation for each and one notice for each 429. It returns the last body if the last answer is a success,
and otherwise throws an `api_error` with its status and body; what is to be sent and cannot be printed is
thrown before the first request. -/
theorem executeRaw_stops (ctx : RequestContext D) (v : Verb) (path : Bytes) (query : QueryBuilder)
    (body : Option (Json D)) (log : Log) :
    match ctx.payloadOf body with
    | .error what => ctx.executeRaw serve v path query body log = (.error (.json what), log)
    | .ok payload =>
      ∃ N, StopsAfter ctx (ctx.request v path query payload)
        (answersAfter serve log (ctx.request v path query payload)) log
        (ctx.executeRaw serve v path query body log) N := by
  have hloop : ∀ payload, ∃ N, StopsAfter ctx (ctx.request v path query payload)
      (answersAfter serve log (ctx.request v path query payload)) log
      (ctx.attemptLoop serve (ctx.request v path query payload) 0 log) N := by
    intro payload
    obtain ⟨N, hleast, hrun⟩ := ctx.attemptLoop_log serve (ctx.request v path query payload) 0 log
    refine ⟨N, hleast, ?_, ?_, ?_, fun hok ↦ ?_, fun hok ↦ ?_⟩
    · rw [hrun, Log.exchanges_append, exchanges_attemptsLog]
    · rw [hrun, Log.reservations_append, reservations_attemptsLog]
    · rw [hrun, Log.notices_append, notices_attemptsLog]
    · rw [hrun, resultOf, if_pos hok]
    · rw [hrun, resultOf, if_neg hok]
      exact ⟨_, _, congrArg Except.error (throwApiError_eq ctx _ _ _)⟩
  rcases body with - | j
  · exact hloop none
  · rw [payloadOf, executeRaw]
    -- `dump` may throw, and does so in front of the loop
    rcases ctx.json.dump j with what | text
    · rfl
    · exact hloop (some text)

end RequestContext

end Alpaca
