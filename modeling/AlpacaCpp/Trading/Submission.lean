import AlpacaCpp.Http.Retry
import AlpacaCpp.Trading.OrderModel
import Mathlib.Data.List.Range

/-!
# Placing an order

What `trading_client::submit_order` puts on the wire, and how often a server may act on it.

A server may act on a POST and still report a failure, so `applications` counts what it did, not what it
said. Every attempt is the same POST (`submitOrder_spec`), and its body has a `client_order_id` only when
the caller gave one, so that nothing tells the server that two of them are one order. **What bounds the
applications is the retry policy**, and the server's restraint on the POSTs it fails
(`applications_submitOrder`). A server without that restraint places the order twice under the default
policy (`applications_oneShare`).
-/

namespace Alpaca

variable {D : Type}

/-- The POST of an order, whose payload is the order's JSON. -/
def IsOrderPost (ctx : RequestContext D) (fmt : D → Bytes) (request : OrderRequest D)
    (req : Request) : Prop :=
  ∃ text, ctx.json.dump (request.toJson fmt) = .ok text ∧
    req = ctx.request .post (bytes "/v2/orders") {} (some text)

/-- How often a server applies the order of a call, when `applied k` says whether it applied the
`k`-th request of that call. -/
def applications (applied : ℕ → Bool) (log : Log) : ℕ :=
  (List.range log.requests.length).countP applied

section Submit

variable [Doubles D] (serve : ℕ → Request → Response) (ctx : RequestContext D) (fmt : D → Bytes)

/-- Reading the answer puts nothing on the wire. -/
theorem submitOrder_log (request : OrderRequest D) (log : Log) :
    (TradingClient.submitOrder serve ctx fmt request log).2 =
      (ctx.post serve (bytes "/v2/orders") (request.toJson fmt) log).2 := by
  rw [TradingClient.submitOrder]
  rcases ctx.post serve _ _ log with ⟨- | j, log'⟩ <;> rfl

/-- **What a submission puts on the wire**: nothing when the order cannot be printed, and otherwise
one POST, repeated after each retryable failure. -/
theorem submitOrder_spec (request : OrderRequest D) :
    (TradingClient.submitOrder serve ctx fmt request []).2 = [] ∨
      ∃ req failed last, IsOrderPost ctx fmt request req ∧
        (TradingClient.submitOrder serve ctx fmt request []).2.exchanges =
          (failed ++ [last]).map (req, ·) ∧
        (∀ r ∈ failed, r.isOk = false ∧ isRetryableStatus r.resultCode) ∧
        failed.length < max 1 ctx.retry.maxAttempts.toNat := by
  rw [submitOrder_log, RequestContext.post, RequestContext.execute_log]
  rcases ctx.executeRaw_spec serve .post (bytes "/v2/orders") {} (some (request.toJson fmt)) [] with
    ⟨what, hnone⟩ | ⟨payload, failed, last, ⟨text, hdump, rfl⟩, h⟩
  · left
    rw [hnone]
  · right
    exact ⟨_, failed, last, ⟨text, hdump, rfl⟩, h.exchanges_eq, h.retried, h.length_lt⟩

/-- **Applications of one submission.** All requests of the call are the same POST of the order and
there are at most `max 1 max_attempts` of them, so the order is applied at most that often; and it is
applied at most once by a server that never applies a POST it fails with a retryable status. -/
theorem applications_submitOrder (request : OrderRequest D) (applied : ℕ → Bool) :
    let log := (TradingClient.submitOrder serve ctx fmt request []).2
    (∀ r ∈ log.requests, IsOrderPost ctx fmt request r) ∧
      (∀ r ∈ log.requests, ∀ r' ∈ log.requests, r = r') ∧
      log.requests.length ≤ max 1 ctx.retry.maxAttempts.toNat ∧
      applications applied log ≤ max 1 ctx.retry.maxAttempts.toNat ∧
      ((∀ k e, log.exchanges[k]? = some e → e.2.isOk = false → isRetryableStatus e.2.resultCode →
        applied k = false) → applications applied log ≤ 1) := by
  intro log
  have hcount : applications applied log ≤ log.requests.length :=
    List.countP_le_length.trans (List.length_range).le
  rcases submitOrder_spec serve ctx fmt request with
    hnil | ⟨req, failed, last, hpost, hex, hretry, hlen⟩
  · have hlog : log = [] := hnil
    rw [hlog] at hcount ⊢
    have hzero : applications applied [] = 0 := rfl
    refine ⟨by simp [Log.requests, Log.exchanges], by simp [Log.requests, Log.exchanges],
      Nat.zero_le _, hzero ▸ Nat.zero_le _, fun _ ↦ hzero ▸ Nat.zero_le _⟩
  · have hreq : log.requests = (failed ++ [last]).map fun _ ↦ req := by
      rw [Log.requests, hex, List.map_map]
      rfl
    have hall : ∀ r ∈ log.requests, r = req := by
      intro r hr
      rw [hreq] at hr
      obtain ⟨-, -, rfl⟩ := List.mem_map.1 hr
      rfl
    have hlength : log.requests.length = failed.length + 1 := by
      rw [hreq, List.length_map, List.length_append, List.length_singleton]
    refine ⟨fun r hr ↦ hall r hr ▸ hpost, fun r hr r' hr' ↦ (hall r hr).trans (hall r' hr').symm,
      by omega, by omega, ?_⟩
    intro hrestraint
    -- every POST but the last was failed retryably, so none of them was applied
    have hfailed : ∀ k ∈ List.range failed.length, ¬applied k = true := by
      intro k hk
      have hlt := List.mem_range.1 hk
      have hget : log.exchanges[k]? = some (req, failed[k]) := by
        rw [hex, List.getElem?_map, List.getElem?_append_left hlt, List.getElem?_eq_getElem hlt]
        rfl
      obtain ⟨hok, hstatus⟩ := hretry _ (List.getElem_mem hlt)
      simp [hrestraint k _ hget hok hstatus]
    rw [applications, hlength, List.range_succ, List.countP_append,
      List.countP_eq_zero.2 hfailed, Nat.zero_add]
    exact List.countP_le_length

end Submit

/-! ### A duplicated order -/

/-- A market order for one share. -/
def oneShare : OrderRequest ℚ where
  symbol := bytes "AAPL"
  side := .buy
  type := .market
  qty := some 1

/-- The JSON library on the two texts of the run below. -/
def oneShareJson : JsonLibrary ℚ where
  parse _ := .ok (.obj [])
  dump _ := .ok (bytes
    "\x7b\"qty\":\"1\",\"side\":\"buy\",\"symbol\":\"AAPL\",\"time_in_force\":\"day\",\"type\":\"market\"\x7d")

/-- A client with the default retry policy. -/
def paperClient : RequestContext ℚ where
  baseUrl := bytes "https://paper-api.alpaca.markets"
  json := oneShareJson
  base64Encode := id
  floatToInt32 := fun x ↦ x.num.tdiv x.den

/-- A server that applies every POST, and answers the first one with a gateway timeout. -/
def lateServer (k : ℕ) (_ : Request) : Response :=
  if k = 0 then { isOk := false, resultCode := 504 }
  else { isOk := true, resultCode := 200, resultText := bytes "\x7b\x7d" }

/-- **One submission, two orders.** -/
theorem applications_oneShare :
    oneShare.clientOrderId = none ∧
      applications (fun _ ↦ true)
        (TradingClient.submitOrder lateServer paperClient (fun x ↦ natToString x.num.toNat) oneShare []).2 = 2 ∧
      ¬∀ (ctx : RequestContext ℚ) (serve : ℕ → Request → Response) (applied : ℕ → Bool)
        (request : OrderRequest ℚ), request.clientOrderId = none →
        applications applied
          (TradingClient.submitOrder serve ctx (fun x ↦ natToString x.num.toNat) request []).2 ≤ 1 := by
  have htwo : applications (fun _ ↦ true)
      (TradingClient.submitOrder lateServer paperClient (fun x ↦ natToString x.num.toNat) oneShare []).2 = 2 := by
    rw [submitOrder_log, RequestContext.post, RequestContext.execute_log, RequestContext.executeRaw]
    simp [paperClient, oneShareJson, RequestContext.attemptLoop, lateServer, isRetryableStatus,
      applications, Log.requests, Log.exchanges, List.range_succ]
  refine ⟨rfl, htwo, fun h ↦ ?_⟩
  have hone := h paperClient lateServer (fun _ ↦ true) oneShare rfl
  omega

end Alpaca
