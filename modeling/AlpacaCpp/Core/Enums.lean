import AlpacaCpp.Foundation.Bytes

/-!
# Wire enumerations

The enumerations of `alpaca/common.hpp` that requests carry or answers name. Each has an `unknown`
enumerator, whose wire form is empty, and which an unrecognised wire value parses to.

`ALPACA_DEFINE_ENUM` generates a printer and a parser from one table, and there is one table for each
enumeration. The parser compares with the wire forms in order, which is `enumFromString`; the printer is a
`switch`. Both keep the source's name and its table, so that either can be put beside the source.

The round trips are those of the enumerations that an order has: what is printed for an enumerator is parsed
as it, also for `unknown`, since no other wire form is empty.
-/

namespace Alpaca

/-- `std::to_string` of an unsigned integer. -/
def natToString (n : ℕ) : Bytes := bytes (toString n)

/-- The wire form of a flag. -/
def boolToString (b : Bool) : Bytes := if b then bytes "true" else bytes "false"

/-- `std::isspace` in the default locale. -/
def isSpace (c : UInt8) : Bool := c = 0x20 ∨ (0x09 ≤ c ∧ c ≤ 0x0D)

/-- The parser `ALPACA_DEFINE_ENUM` generates from a list of enumerators and their wire forms. -/
def enumFromString {α : Type} (unknown : α) : List (α × Bytes) → Bytes → α
  | [], _ => unknown
  | (id, str) :: rest, s => if s = str then id else enumFromString unknown rest s

inductive SortDirection where
  | unknown | asc | desc
  deriving DecidableEq

def SortDirection.toString : SortDirection → Bytes
  | asc => bytes "asc"
  | desc => bytes "desc"
  | unknown => []

inductive OrderSide where
  | unknown | buy | sell
  deriving DecidableEq

def OrderSide.toString : OrderSide → Bytes
  | buy => bytes "buy"
  | sell => bytes "sell"
  | unknown => []

/-- `to_order_side` -/
def toOrderSide : Bytes → OrderSide :=
  enumFromString .unknown [(.buy, bytes "buy"), (.sell, bytes "sell")]

theorem toOrderSide_toString (v : OrderSide) : toOrderSide v.toString = v := by cases v <;> rfl

inductive OrderType where
  | unknown | market | limit | stop | stopLimit | trailingStop
  deriving DecidableEq

def OrderType.toString : OrderType → Bytes
  | market => bytes "market"
  | limit => bytes "limit"
  | stop => bytes "stop"
  | stopLimit => bytes "stop_limit"
  | trailingStop => bytes "trailing_stop"
  | unknown => []

/-- `to_order_type` -/
def toOrderType : Bytes → OrderType :=
  enumFromString .unknown [(.market, bytes "market"), (.limit, bytes "limit"), (.stop, bytes "stop"),
    (.stopLimit, bytes "stop_limit"), (.trailingStop, bytes "trailing_stop")]

theorem toOrderType_toString (v : OrderType) : toOrderType v.toString = v := by cases v <;> rfl

inductive TimeInForce where
  | unknown | day | gtc | opg | cls | ioc | fok
  deriving DecidableEq

def TimeInForce.toString : TimeInForce → Bytes
  | day => bytes "day"
  | gtc => bytes "gtc"
  | opg => bytes "opg"
  | cls => bytes "cls"
  | ioc => bytes "ioc"
  | fok => bytes "fok"
  | unknown => []

/-- `to_time_in_force` -/
def toTimeInForce : Bytes → TimeInForce :=
  enumFromString .unknown [(.day, bytes "day"), (.gtc, bytes "gtc"), (.opg, bytes "opg"),
    (.cls, bytes "cls"), (.ioc, bytes "ioc"), (.fok, bytes "fok")]

theorem toTimeInForce_toString (v : TimeInForce) : toTimeInForce v.toString = v := by cases v <;> rfl

inductive OrderClass where
  | unknown | simple | bracket | oco | oto | mleg
  deriving DecidableEq

def OrderClass.toString : OrderClass → Bytes
  | simple => bytes "simple"
  | bracket => bytes "bracket"
  | oco => bytes "oco"
  | oto => bytes "oto"
  | mleg => bytes "mleg"
  | unknown => []

/-- `to_order_class` -/
def toOrderClass : Bytes → OrderClass :=
  enumFromString .unknown [(.simple, bytes "simple"), (.bracket, bytes "bracket"), (.oco, bytes "oco"),
    (.oto, bytes "oto"), (.mleg, bytes "mleg")]

theorem toOrderClass_toString (v : OrderClass) : toOrderClass v.toString = v := by cases v <;> rfl

inductive OrderStatus where
  | unknown | new | partiallyFilled | filled | doneForDay | canceled | expired | replaced
  | pendingCancel | pendingReplace | pendingReview | accepted | pendingNew | acceptedForBidding
  | stopped | rejected | suspended | calculated | held
  deriving DecidableEq

/-- `to_order_status` -/
def toOrderStatus : Bytes → OrderStatus :=
  enumFromString .unknown [(.new, bytes "new"), (.partiallyFilled, bytes "partially_filled"),
    (.filled, bytes "filled"), (.doneForDay, bytes "done_for_day"), (.canceled, bytes "canceled"),
    (.expired, bytes "expired"), (.replaced, bytes "replaced"),
    (.pendingCancel, bytes "pending_cancel"), (.pendingReplace, bytes "pending_replace"),
    (.pendingReview, bytes "pending_review"), (.accepted, bytes "accepted"),
    (.pendingNew, bytes "pending_new"), (.acceptedForBidding, bytes "accepted_for_bidding"),
    (.stopped, bytes "stopped"), (.rejected, bytes "rejected"), (.suspended, bytes "suspended"),
    (.calculated, bytes "calculated"), (.held, bytes "held")]

/-- Which orders `list_orders` returns. -/
inductive OrderStatusFilter where
  | unknown | open | closed | all
  deriving DecidableEq

def OrderStatusFilter.toString : OrderStatusFilter → Bytes
  | .open => bytes "open"
  | .closed => bytes "closed"
  | .all => bytes "all"
  | .unknown => []

inductive AssetClass where
  | unknown | usEquity | usOption | crypto
  deriving DecidableEq

/-- `to_asset_class` -/
def toAssetClass : Bytes → AssetClass :=
  enumFromString .unknown [(.usEquity, bytes "us_equity"), (.usOption, bytes "us_option"),
    (.crypto, bytes "crypto")]

inductive PositionIntent where
  | unknown | buyToOpen | buyToClose | sellToOpen | sellToClose
  deriving DecidableEq

def PositionIntent.toString : PositionIntent → Bytes
  | buyToOpen => bytes "buy_to_open"
  | buyToClose => bytes "buy_to_close"
  | sellToOpen => bytes "sell_to_open"
  | sellToClose => bytes "sell_to_close"
  | unknown => []

/-- `to_position_intent` -/
def toPositionIntent : Bytes → PositionIntent :=
  enumFromString .unknown [(.buyToOpen, bytes "buy_to_open"), (.buyToClose, bytes "buy_to_close"),
    (.sellToOpen, bytes "sell_to_open"), (.sellToClose, bytes "sell_to_close")]

theorem toPositionIntent_toString (v : PositionIntent) : toPositionIntent v.toString = v := by
  cases v <;> rfl

inductive ContractType where
  | unknown | call | put
  deriving DecidableEq

def ContractType.toString : ContractType → Bytes
  | call => bytes "call"
  | put => bytes "put"
  | unknown => []

/-- `to_contract_type` -/
def toContractType : Bytes → ContractType :=
  enumFromString .unknown [(.call, bytes "call"), (.put, bytes "put")]

inductive ContractStyle where
  | unknown | american | european
  deriving DecidableEq

def ContractStyle.toString : ContractStyle → Bytes
  | american => bytes "american"
  | european => bytes "european"
  | unknown => []

/-- `to_contract_style` -/
def toContractStyle : Bytes → ContractStyle :=
  enumFromString .unknown [(.american, bytes "american"), (.european, bytes "european")]

inductive AssetStatus where
  | unknown | active | inactive
  deriving DecidableEq

def AssetStatus.toString : AssetStatus → Bytes
  | active => bytes "active"
  | inactive => bytes "inactive"
  | unknown => []

/-- `to_asset_status` -/
def toAssetStatus : Bytes → AssetStatus :=
  enumFromString .unknown [(.active, bytes "active"), (.inactive, bytes "inactive")]

inductive OptionFeed where
  | unknown | opra | indicative
  deriving DecidableEq

def OptionFeed.toString : OptionFeed → Bytes
  | opra => bytes "opra"
  | indicative => bytes "indicative"
  | unknown => []

inductive CryptoLocation where
  | unknown | us | us1 | eu1
  deriving DecidableEq

def CryptoLocation.toString : CryptoLocation → Bytes
  | us => bytes "us"
  | us1 => bytes "us-1"
  | eu1 => bytes "eu-1"
  | unknown => []

inductive DataFeed where
  | unknown | iex | sip | delayedSip | boats | overnight | otc
  deriving DecidableEq

def DataFeed.toString : DataFeed → Bytes
  | iex => bytes "iex"
  | sip => bytes "sip"
  | delayedSip => bytes "delayed_sip"
  | boats => bytes "boats"
  | overnight => bytes "overnight"
  | otc => bytes "otc"
  | unknown => []

inductive Adjustment where
  | unknown | raw | split | dividend | all
  deriving DecidableEq

def Adjustment.toString : Adjustment → Bytes
  | raw => bytes "raw"
  | split => bytes "split"
  | dividend => bytes "dividend"
  | all => bytes "all"
  | unknown => []

inductive TimeframeUnit where
  | minute | hour | day | week | month
  deriving DecidableEq

def TimeframeUnit.toString : TimeframeUnit → Bytes
  | minute => bytes "Min"
  | hour => bytes "Hour"
  | day => bytes "Day"
  | week => bytes "Week"
  | month => bytes "Month"

/-- Bar aggregation interval, `timeframe`. -/
structure Timeframe where
  amount : UInt32 := 1
  unit : TimeframeUnit := .day
  deriving DecidableEq

/-- `1Min`, `5Hour`, `1Day` -/
def Timeframe.toString (tf : Timeframe) : Bytes :=
  natToString tf.amount.toNat ++ tf.unit.toString

end Alpaca
