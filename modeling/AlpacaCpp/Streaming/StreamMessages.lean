import AlpacaCpp.Data.MarketData

/-!
# Messages of the market data streams

The control messages every market data stream speaks, `stream_error` and `subscriptions`, and the stock
payloads that have no REST equivalent (`streaming/stream_message.hpp`); then `StockMessage`, one
constructor for each type byte `stock_data_stream::dispatch` knows.

`StockType.exists_read_iff` says when a payload can be read, `StockType.WellTyped` when its fields hold
the documented types, and `StockType.WellTyped.exists_read` that the second is enough for the first.

**A payload throws at its timestamp, or at a condition code that is no string**, and at nothing else: the
macros of the other fields catch what they meet and log it. So `Readable` asks for very little of a
message, and the streams above can speak of a frame whose messages are readable instead of one that is
well typed.
-/

namespace Alpaca

variable {D : Type}

/-! ### Control messages

Every stream sends these two beside its payloads. Neither holds a timestamp, and the macros of their
fields log what they cannot read, so reading them never throws and is described field by field. -/

/-- `stream_error` -/
structure StreamError where
  code : ℤ := 0
  message : Bytes := []
  deriving DecidableEq

/-- `from_json` of a `stream_error`. -/
def StreamError.fromJson [DoubleCasts D] (lib : JsonLibrary D) : Reader D StreamError := fromLines [
  readInt lib (bytes "code") fun e x ↦ { e with code := i32 x },
  readVariable lib (bytes "msg") Json.getString fun e x ↦ { e with message := x }]

/-- `subscriptions` -/
structure Subscriptions where
  trades : List Bytes := []
  quotes : List Bytes := []
  bars : List Bytes := []
  updatedBars : List Bytes := []
  dailyBars : List Bytes := []
  statuses : List Bytes := []
  lulds : List Bytes := []
  imbalances : List Bytes := []
  corrections : List Bytes := []
  cancelErrors : List Bytes := []
  orderbooks : List Bytes := []
  news : List Bytes := []
  deriving DecidableEq

/-- `from_json` of `subscriptions`. -/
def Subscriptions.fromJson (lib : JsonLibrary D) : Reader D Subscriptions := fromLines [
  readVariable lib (bytes "trades") Json.getStrings fun s x ↦ { s with trades := x },
  readVariable lib (bytes "quotes") Json.getStrings fun s x ↦ { s with quotes := x },
  readVariable lib (bytes "bars") Json.getStrings fun s x ↦ { s with bars := x },
  readVariable lib (bytes "updatedBars") Json.getStrings fun s x ↦ { s with updatedBars := x },
  readVariable lib (bytes "dailyBars") Json.getStrings fun s x ↦ { s with dailyBars := x },
  readVariable lib (bytes "statuses") Json.getStrings fun s x ↦ { s with statuses := x },
  readVariable lib (bytes "lulds") Json.getStrings fun s x ↦ { s with lulds := x },
  readVariable lib (bytes "imbalances") Json.getStrings fun s x ↦ { s with imbalances := x },
  readVariable lib (bytes "corrections") Json.getStrings fun s x ↦ { s with corrections := x },
  readVariable lib (bytes "cancelErrors") Json.getStrings fun s x ↦ { s with cancelErrors := x },
  readVariable lib (bytes "orderbooks") Json.getStrings fun s x ↦ { s with orderbooks := x },
  readVariable lib (bytes "news") Json.getStrings fun s x ↦ { s with news := x }]

section Values

variable {lib : JsonLibrary D} {j : Json D} (hj : lib.Prints j)

include hj

/-- An error, field by field. -/
theorem StreamError.fromJson_eq [DoubleCasts D] (o : StreamError) :
    StreamError.fromJson lib j o = .ok {
      code := ((intAt lib j (bytes "code")).map i32).getD o.code
      message := (j.variableAt (bytes "msg") Json.getString).getD o.message } := by
  rw [fromJson, fromLines_cons (readInt_eq hj i32 (fun e x ↦ { e with code := x }) code
      (fun _ ↦ rfl) o), fromLines_cons (readVariable_eq hj message (fun _ ↦ rfl) _)]
  rfl

/-- Subscriptions, channel by channel. -/
theorem Subscriptions.fromJson_eq (o : Subscriptions) :
    Subscriptions.fromJson lib j o = .ok {
      trades := (j.variableAt (bytes "trades") Json.getStrings).getD o.trades
      quotes := (j.variableAt (bytes "quotes") Json.getStrings).getD o.quotes
      bars := (j.variableAt (bytes "bars") Json.getStrings).getD o.bars
      updatedBars := (j.variableAt (bytes "updatedBars") Json.getStrings).getD o.updatedBars
      dailyBars := (j.variableAt (bytes "dailyBars") Json.getStrings).getD o.dailyBars
      statuses := (j.variableAt (bytes "statuses") Json.getStrings).getD o.statuses
      lulds := (j.variableAt (bytes "lulds") Json.getStrings).getD o.lulds
      imbalances := (j.variableAt (bytes "imbalances") Json.getStrings).getD o.imbalances
      corrections := (j.variableAt (bytes "corrections") Json.getStrings).getD o.corrections
      cancelErrors := (j.variableAt (bytes "cancelErrors") Json.getStrings).getD o.cancelErrors
      orderbooks := (j.variableAt (bytes "orderbooks") Json.getStrings).getD o.orderbooks
      news := (j.variableAt (bytes "news") Json.getStrings).getD o.news } := by
  rw [fromJson, fromLines_cons (readVariable_eq hj trades (fun _ ↦ rfl) o),
    fromLines_cons (readVariable_eq hj quotes (fun _ ↦ rfl) _),
    fromLines_cons (readVariable_eq hj bars (fun _ ↦ rfl) _),
    fromLines_cons (readVariable_eq hj updatedBars (fun _ ↦ rfl) _),
    fromLines_cons (readVariable_eq hj dailyBars (fun _ ↦ rfl) _),
    fromLines_cons (readVariable_eq hj statuses (fun _ ↦ rfl) _),
    fromLines_cons (readVariable_eq hj lulds (fun _ ↦ rfl) _),
    fromLines_cons (readVariable_eq hj imbalances (fun _ ↦ rfl) _),
    fromLines_cons (readVariable_eq hj corrections (fun _ ↦ rfl) _),
    fromLines_cons (readVariable_eq hj cancelErrors (fun _ ↦ rfl) _),
    fromLines_cons (readVariable_eq hj orderbooks (fun _ ↦ rfl) _),
    fromLines_cons (readVariable_eq hj news (fun _ ↦ rfl) _)]
  rfl

/-- Control messages do not throw. -/
theorem StreamError.total_fromJson [DoubleCasts D] : (StreamError.fromJson lib).Total j :=
  fun o ↦ ⟨_, fromJson_eq hj o⟩

theorem Subscriptions.total_fromJson : (Subscriptions.fromJson lib).Total j :=
  fun o ↦ ⟨_, fromJson_eq hj o⟩

end Values

/-! ### Stock payloads

The five models and the lines of their macros, in the order of the source. A line names the key on the
wire, the macro, and the field it assigns; `from_json` runs them from the first to the last. -/

/-- `trading_status` -/
structure TradingStatus where
  timestamp : ℕ := 0
  statusCode : Bytes := []
  statusMessage : Bytes := []
  reasonCode : Bytes := []
  reasonMessage : Bytes := []
  tape : Bytes := []
  deriving DecidableEq

/-- `luld` -/
structure Luld (D : Type) where
  timestamp : ℕ := 0
  limitUpPrice : D
  limitDownPrice : D
  indicator : Bytes := []
  tape : Bytes := []
  deriving DecidableEq

/-- `trade_correction` -/
structure TradeCorrection (D : Type) where
  timestamp : ℕ := 0
  exchange : Bytes := []
  originalId : ℕ := 0
  originalPrice : D
  originalSize : D
  originalConditions : List Bytes := []
  correctedId : ℕ := 0
  correctedPrice : D
  correctedSize : D
  correctedConditions : List Bytes := []
  tape : Bytes := []
  deriving DecidableEq

/-- `trade_cancel_error` -/
structure TradeCancelError (D : Type) where
  timestamp : ℕ := 0
  id : ℕ := 0
  exchange : Bytes := []
  price : D
  size : D
  action : Bytes := []
  tape : Bytes := []
  deriving DecidableEq

/-- `imbalance` -/
structure Imbalance (D : Type) where
  timestamp : ℕ := 0
  price : D
  tape : Bytes := []
  deriving DecidableEq

section FromJson

variable [Doubles D] (lib : JsonLibrary D)

/-- The lines of `from_json` of a `trading_status` behind the timestamp. -/
def TradingStatus.lines : List (Reader D TradingStatus) := [
  readVariable lib (bytes "sc") Json.getString fun s x ↦ { s with statusCode := x },
  readVariable lib (bytes "sm") Json.getString fun s x ↦ { s with statusMessage := x },
  readVariable lib (bytes "rc") Json.getString fun s x ↦ { s with reasonCode := x },
  readVariable lib (bytes "rm") Json.getString fun s x ↦ { s with reasonMessage := x },
  readVariable lib (bytes "z") Json.getString fun s x ↦ { s with tape := x }]

/-- `from_json` of a `trading_status`. -/
def TradingStatus.fromJson : Reader D TradingStatus :=
  fromLines (readTimestamp (bytes "t") (fun s x ↦ { s with timestamp := x }) :: lines lib)

/-- The lines of `from_json` of a `luld` behind the timestamp. -/
def Luld.lines : List (Reader D (Luld D)) := [
  readDouble lib (bytes "u") fun l x ↦ { l with limitUpPrice := x },
  readDouble lib (bytes "d") fun l x ↦ { l with limitDownPrice := x },
  readVariable lib (bytes "i") Json.getString fun l x ↦ { l with indicator := x },
  readVariable lib (bytes "z") Json.getString fun l x ↦ { l with tape := x }]

/-- `from_json` of a `luld`. -/
def Luld.fromJson : Reader D (Luld D) :=
  fromLines (readTimestamp (bytes "t") (fun l x ↦ { l with timestamp := x }) :: lines lib)

/-- The lines of `from_json` of a `trade_correction` behind the timestamp. -/
def TradeCorrection.lines : List (Reader D (TradeCorrection D)) := [
  readVariable lib (bytes "x") Json.getString fun c x ↦ { c with exchange := x },
  readInt lib (bytes "oi") fun c x ↦ { c with originalId := castU64 x },
  readDouble lib (bytes "op") fun c x ↦ { c with originalPrice := x },
  readDouble lib (bytes "os") fun c x ↦ { c with originalSize := x },
  readVariable lib (bytes "oc") Json.getStrings fun c x ↦ { c with originalConditions := x },
  readInt lib (bytes "ci") fun c x ↦ { c with correctedId := castU64 x },
  readDouble lib (bytes "cp") fun c x ↦ { c with correctedPrice := x },
  readDouble lib (bytes "cs") fun c x ↦ { c with correctedSize := x },
  readVariable lib (bytes "cc") Json.getStrings fun c x ↦ { c with correctedConditions := x },
  readVariable lib (bytes "z") Json.getString fun c x ↦ { c with tape := x }]

/-- `from_json` of a `trade_correction`. -/
def TradeCorrection.fromJson : Reader D (TradeCorrection D) :=
  fromLines (readTimestamp (bytes "t") (fun c x ↦ { c with timestamp := x }) :: lines lib)

/-- The lines of `from_json` of a `trade_cancel_error` behind the timestamp. -/
def TradeCancelError.lines : List (Reader D (TradeCancelError D)) := [
  readInt lib (bytes "i") fun c x ↦ { c with id := castU64 x },
  readVariable lib (bytes "x") Json.getString fun c x ↦ { c with exchange := x },
  readDouble lib (bytes "p") fun c x ↦ { c with price := x },
  readDouble lib (bytes "s") fun c x ↦ { c with size := x },
  readVariable lib (bytes "a") Json.getString fun c x ↦ { c with action := x },
  readVariable lib (bytes "z") Json.getString fun c x ↦ { c with tape := x }]

/-- `from_json` of a `trade_cancel_error`. -/
def TradeCancelError.fromJson : Reader D (TradeCancelError D) :=
  fromLines (readTimestamp (bytes "t") (fun c x ↦ { c with timestamp := x }) :: lines lib)

/-- The lines of `from_json` of an `imbalance` behind the timestamp. -/
def Imbalance.lines : List (Reader D (Imbalance D)) := [
  readDouble lib (bytes "p") fun i x ↦ { i with price := x },
  readVariable lib (bytes "z") Json.getString fun i x ↦ { i with tape := x }]

/-- `from_json` of an `imbalance`. -/
def Imbalance.fromJson : Reader D (Imbalance D) :=
  fromLines (readTimestamp (bytes "t") (fun i x ↦ { i with timestamp := x }) :: lines lib)

end FromJson

section Defaults

variable [DoubleCasts D]

/-- A default-constructed `luld`. -/
def Luld.empty : Luld D where
  limitUpPrice := DoubleCasts.zero
  limitDownPrice := DoubleCasts.zero

/-- A default-constructed `trade_correction`. -/
def TradeCorrection.empty : TradeCorrection D where
  originalPrice := DoubleCasts.zero
  originalSize := DoubleCasts.zero
  correctedPrice := DoubleCasts.zero
  correctedSize := DoubleCasts.zero

/-- A default-constructed `trade_cancel_error`. -/
def TradeCancelError.empty : TradeCancelError D where
  price := DoubleCasts.zero
  size := DoubleCasts.zero

/-- A default-constructed `imbalance`. -/
def Imbalance.empty : Imbalance D where
  price := DoubleCasts.zero

end Defaults

/-! ### All payloads of a stock stream

`dispatch` reads the byte under `T` and chooses the model by it. A byte it does not know is skipped, so a
`StockType` is one of those it knows, and `read` is the one function that stands for all of its branches. -/

/-- The type of a payload. -/
inductive StockType where
  | trade | quote | bar | updatedBar | dailyBar | status | luld | correction | cancelError | imbalance
  deriving DecidableEq

/-- A payload, as its handler receives it. -/
inductive StockMessage (D : Type) where
  | trade (t : Trade D)
  | quote (q : Quote D)
  | bar (b : Bar D)
  | updatedBar (b : Bar D)
  | dailyBar (b : Bar D)
  | status (s : TradingStatus)
  | luld (l : Luld D)
  | correction (c : TradeCorrection D)
  | cancelError (c : TradeCancelError D)
  | imbalance (i : Imbalance D)
  deriving DecidableEq

namespace StockType

/-- The switch of `dispatch`. -/
def ofBytes (type : Bytes) : Option StockType :=
  match type with
  | [c] =>
    if c = byte 't' then some .trade
    else if c = byte 'q' then some .quote
    else if c = byte 'b' then some .bar
    else if c = byte 'u' then some .updatedBar
    else if c = byte 'd' then some .dailyBar
    else if c = byte 's' then some .status
    else if c = byte 'l' then some .luld
    else if c = byte 'c' then some .correction
    else if c = byte 'x' then some .cancelError
    else if c = byte 'i' then some .imbalance
    else none
  | _ => none

/-- The `from_json` of a type, on a default value. -/
def read [Doubles D] (lib : JsonLibrary D) (j : Json D) : StockType → Except Bytes (StockMessage D)
  | trade => (Trade.fromJson lib j .empty).map .trade
  | quote => (Quote.fromJson lib j .empty).map .quote
  | bar => (Bar.fromJson lib j .empty).map .bar
  | updatedBar => (Bar.fromJson lib j .empty).map .updatedBar
  | dailyBar => (Bar.fromJson lib j .empty).map .dailyBar
  | status => (TradingStatus.fromJson lib j {}).map .status
  | luld => (Luld.fromJson lib j .empty).map .luld
  | correction => (TradeCorrection.fromJson lib j .empty).map .correction
  | cancelError => (TradeCancelError.fromJson lib j .empty).map .cancelError
  | imbalance => (Imbalance.fromJson lib j .empty).map .imbalance

/-- What a payload must hold to be read. -/
def Readable (j : Json D) (type : StockType) : Prop :=
  j.Dated (bytes "t") ∧ (type = trade ∨ type = quote → j.TextConditions)

section Reading

variable [Doubles D] {lib : JsonLibrary D} {j : Json D}

/-- **A payload is read** or throws, by its timestamp and its conditions alone. -/
theorem exists_read_iff (hj : lib.Prints j) (type : StockType) :
    (∃ m, type.read lib j = .ok m) ↔ type.Readable j := by
  -- only trades and quotes have conditions
  have hplain : ∀ {t : StockType}, t ≠ .trade → t ≠ .quote →
      (t.Readable j ↔ j.Dated (bytes "t")) := fun h h' ↦
    ⟨fun hr ↦ hr.1, fun ht ↦ ⟨ht, fun hor ↦ absurd hor (by simp [h, h'])⟩⟩
  cases type with
  | trade =>
    rw [read, exists_map_eq_ok, Trade.returnsIff_fromJson hj, Readable]
    simp
  | quote =>
    rw [read, exists_map_eq_ok, Quote.returnsIff_fromJson hj, Readable]
    simp
  | bar | updatedBar | dailyBar =>
    rw [read, exists_map_eq_ok, Bar.returnsIff_fromJson hj, hplain (by simp) (by simp)]
  | status =>
    rw [read, exists_map_eq_ok, hplain (by simp) (by simp)]
    exact returnsIff_timestamp_cons (by simp [TradingStatus.lines, total_readVariable hj]) _ _ _
  | luld =>
    rw [read, exists_map_eq_ok, hplain (by simp) (by simp)]
    exact returnsIff_timestamp_cons
      (by simp [Luld.lines, total_readDouble hj, total_readVariable hj]) _ _ _
  | correction =>
    rw [read, exists_map_eq_ok, hplain (by simp) (by simp)]
    exact returnsIff_timestamp_cons (by simp [TradeCorrection.lines, total_readDouble hj,
      total_readInt hj, total_readVariable hj]) _ _ _
  | cancelError =>
    rw [read, exists_map_eq_ok, hplain (by simp) (by simp)]
    exact returnsIff_timestamp_cons (by simp [TradeCancelError.lines, total_readDouble hj,
      total_readInt hj, total_readVariable hj]) _ _ _
  | imbalance =>
    rw [read, exists_map_eq_ok, hplain (by simp) (by simp)]
    exact returnsIff_timestamp_cons
      (by simp [Imbalance.lines, total_readDouble hj, total_readVariable hj]) _ _ _

end Reading

end StockType

/-! ### Documented types

What the documentation of the feed says of a field, as data: its key, and the kind of value under it. A
payload that keeps to it can be read. The converse fails: a number of the wrong kind is logged and
skipped, so such a payload is delivered without it. -/

/-- The type the documentation gives a field. -/
inductive FieldType where
  | timestamp | number | text | texts | conditions

/-- Holding the documented type, or null. -/
def FieldType.Accepts (v : Json D) : FieldType → Prop
  | timestamp => v.isNull = true ∨ v.isString = true
  | number => v.isNull = true ∨ v.isNumber = true
  | text => v.isNull = true ∨ v.isString = true
  | texts => v.isNull = true ∨ ∃ elems, v = .arr elems ∧ ∀ e ∈ elems, e.isString = true
  | conditions => v.isNull = true ∨ v.isString = true ∨
      ∃ elems, v = .arr elems ∧ ∀ e ∈ elems, e.isString = true

namespace StockType

/-- The documented fields of a payload. -/
def fields : StockType → List (Bytes × FieldType)
  | trade => [(bytes "t", .timestamp), (bytes "p", .number), (bytes "s", .number),
      (bytes "i", .number), (bytes "x", .text), (bytes "z", .text), (bytes "u", .text),
      (bytes "tks", .text), (bytes "c", .conditions)]
  | quote => [(bytes "t", .timestamp), (bytes "bp", .number), (bytes "bs", .number),
      (bytes "ap", .number), (bytes "as", .number), (bytes "bx", .text), (bytes "ax", .text),
      (bytes "z", .text), (bytes "c", .conditions)]
  | bar | updatedBar | dailyBar => [(bytes "t", .timestamp), (bytes "o", .number),
      (bytes "h", .number), (bytes "l", .number), (bytes "c", .number), (bytes "v", .number),
      (bytes "vw", .number), (bytes "n", .number)]
  | status => [(bytes "t", .timestamp), (bytes "sc", .text), (bytes "sm", .text),
      (bytes "rc", .text), (bytes "rm", .text), (bytes "z", .text)]
  | luld => [(bytes "t", .timestamp), (bytes "u", .number), (bytes "d", .number),
      (bytes "i", .text), (bytes "z", .text)]
  | correction => [(bytes "t", .timestamp), (bytes "x", .text), (bytes "oi", .number),
      (bytes "op", .number), (bytes "os", .number), (bytes "oc", .texts), (bytes "ci", .number),
      (bytes "cp", .number), (bytes "cs", .number), (bytes "cc", .texts), (bytes "z", .text)]
  | cancelError => [(bytes "t", .timestamp), (bytes "i", .number), (bytes "x", .text),
      (bytes "p", .number), (bytes "s", .number), (bytes "a", .text), (bytes "z", .text)]
  | imbalance => [(bytes "t", .timestamp), (bytes "p", .number), (bytes "z", .text)]

/-- Every field that is there holds its documented type. -/
def WellTyped (type : StockType) (j : Json D) : Prop :=
  ∀ f ∈ type.fields, ∀ v, j.member? f.1 = some v → f.2.Accepts v

/-- A well-typed payload can be read. -/
theorem WellTyped.readable {type : StockType} {j : Json D} (h : type.WellTyped j) :
    type.Readable j := by
  have hconditions : (bytes "c", FieldType.conditions) ∈ type.fields → j.TextConditions := by
    intro hmem elems helems
    rcases h _ hmem _ helems with hnull | hstr | ⟨elems', heq, hall⟩
    · exact absurd hnull (by simp [Json.isNull])
    · exact absurd hstr (by simp [Json.isString])
    · rwa [Json.arr.inj heq]
  have ht : (bytes "t", FieldType.timestamp) ∈ type.fields := by
    cases type <;> exact List.mem_cons_self
  refine ⟨h _ ht, ?_⟩
  rintro (rfl | rfl)
  · exact hconditions (by simp [fields])
  · exact hconditions (by simp [fields])

end StockType

end Alpaca
