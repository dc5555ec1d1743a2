import AlpacaCpp.Core.Enums
import AlpacaCpp.Core.Json

/-!
# Order requests

`order_request` and its `to_json`. Prices and quantities are doubles and their type stays abstract; `fmt` is
`alpaca::to_string`, which every one of them goes through, so that on the wire they are strings.

A field that is not set is not sent. That holds of `client_order_id` as well
(`OrderRequest.member?_toJson_clientOrderId`): nothing in the library makes one up.
-/

namespace Alpaca

variable {D : Type}

/-! ### Order requests -/

/-- `take_profit_request` -/
structure TakeProfitRequest (D : Type) where
  limitPrice : D

/-- `stop_loss_request` -/
structure StopLossRequest (D : Type) where
  stopPrice : D
  limitPrice : Option D := none

/-- `order_leg_request` -/
structure OrderLegRequest (D : Type) where
  symbol : Bytes
  ratioQty : D
  side : OrderSide := .unknown
  positionIntent : Option PositionIntent := none

/-- `order_request` -/
structure OrderRequest (D : Type) where
  symbol : Bytes := []
  side : OrderSide := .unknown
  type : OrderType := .unknown
  timeInForce : TimeInForce := .day
  qty : Option D := none
  notional : Option D := none
  limitPrice : Option D := none
  stopPrice : Option D := none
  trailPrice : Option D := none
  trailPercent : Option D := none
  orderClass : Option OrderClass := none
  extendedHours : Option Bool := none
  clientOrderId : Option Bytes := none
  positionIntent : Option PositionIntent := none
  takeProfit : Option (TakeProfitRequest D) := none
  stopLoss : Option (StopLossRequest D) := none
  legs : List (OrderLegRequest D) := []

section ToJson

variable (fmt : D → Bytes)

/-- `take_profit_request::to_json` -/
def TakeProfitRequest.toJson (r : TakeProfitRequest D) : Json D :=
  (Json.obj []).set (bytes "limit_price") (.str (fmt r.limitPrice))

/-- `stop_loss_request::to_json` -/
def StopLossRequest.toJson (r : StopLossRequest D) : Json D :=
  ((Json.obj []).set (bytes "stop_price") (.str (fmt r.stopPrice))).setOption (bytes "limit_price")
    (fun x ↦ .str (fmt x)) r.limitPrice

/-- `order_leg_request::to_json` -/
def OrderLegRequest.toJson (r : OrderLegRequest D) : Json D :=
  ((((Json.obj []).set (bytes "symbol") (.str r.symbol)).set
    (bytes "ratio_qty") (.str (fmt r.ratioQty))).set
    (bytes "side") (.str r.side.toString)).setOption
    (bytes "position_intent") (fun x ↦ .str x.toString) r.positionIntent

/-- `order_request::to_json`. A multi-leg order carries symbol and side per leg instead of at the top
level. -/
def OrderRequest.toJson (r : OrderRequest D) : Json D :=
  let number (x : D) : Json D := .str (fmt x)
  let isMleg : Prop := r.orderClass = some .mleg
  let j := Json.obj []
  let j := j.setIf (¬isMleg) (bytes "symbol") (.str r.symbol)
  let j := j.setIf (¬isMleg ∧ r.side ≠ .unknown) (bytes "side") (.str r.side.toString)
  let j := j.setIf (r.type ≠ .unknown) (bytes "type") (.str r.type.toString)
  let j := j.set (bytes "time_in_force") (.str r.timeInForce.toString)
  let j := j.setOption (bytes "qty") number r.qty
  let j := j.setOption (bytes "notional") number r.notional
  let j := j.setOption (bytes "limit_price") number r.limitPrice
  let j := j.setOption (bytes "stop_price") number r.stopPrice
  let j := j.setOption (bytes "trail_price") number r.trailPrice
  let j := j.setOption (bytes "trail_percent") number r.trailPercent
  let j := j.setOption (bytes "order_class") (fun x ↦ .str x.toString) r.orderClass
  let j := j.setOption (bytes "extended_hours") .bool r.extendedHours
  let j := j.setOption (bytes "client_order_id") .str r.clientOrderId
  let j := j.setOption (bytes "position_intent") (fun x ↦ .str x.toString) r.positionIntent
  let j := j.setOption (bytes "take_profit") (TakeProfitRequest.toJson fmt) r.takeProfit
  let j := j.setOption (bytes "stop_loss") (StopLossRequest.toJson fmt) r.stopLoss
  j.setIf (r.legs ≠ []) (bytes "legs") (.arr (r.legs.map (OrderLegRequest.toJson fmt)))

/-- The idempotency key is the caller's, or absent. -/
theorem OrderRequest.member?_toJson_clientOrderId (r : OrderRequest D) :
    (r.toJson fmt).member? (bytes "client_order_id") = r.clientOrderId.map .str := by
  simp (disch := decide) only [toJson, Json.member?_setIf_of_ne, Json.member?_setOption_of_ne]
  apply Json.member?_setOption_self
  · simp only [Json.isObject_setIf, Json.isObject_set, Json.isObject_setOption]
    rfl
  · simp (disch := decide) only [Json.member?_setIf_of_ne, Json.member?_set_of_ne,
      Json.member?_setOption_of_ne]
    rfl

end ToJson

end Alpaca
