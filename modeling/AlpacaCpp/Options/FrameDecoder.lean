import AlpacaCpp.Core.Json
import AlpacaCpp.Foundation.Sax
import AlpacaCpp.Time.Timestamp

/-!
# The MessagePack visitor of the option streams

`raw_message`, `field_of`, `timestamp_from_ext` and `message_visitor` of
`options-streaming/src/frame_decoder.hpp`. A frame is a tree of MessagePack scalars and reaches the
visitor as the event stream of `Sax`; the callbacks `null_visitor` leaves empty are the events that
change nothing.

The pointer `list_` into the message under construction is the name of one of its three vectors. The
two depth counters are unbounded: each level of nesting takes a byte of the frame.

The timestamp of a message arrives as an extension of four, eight or twelve bytes behind its type. Reading
it is partial, as the parsers of timestamps are, with `none` for a byte outside the payload; it does not
occur (`timestampFromExt?_isSome`). An extension of another type or length gives 0.
-/

namespace Alpaca

open Sax

/-! ### MessagePack scalars -/

/-- A MessagePack scalar. A `float` is kept as the double it widens to. An extension is its type
byte followed by its payload, as the parser hands it over. -/
inductive Scalar (D : Type) where
  | nil
  | boolean (b : Bool)
  | positiveInteger (v : UInt64)
  | negativeInteger (v : Int64)
  | float32 (v : D)
  | float64 (v : D)
  | str (v : Bytes)
  | bin (v : Bytes)
  | ext (data : Bytes)

/-! ### Timestamps -/

/-- `load_big_endian` of `count` bytes from `pos`, with `value` already read. -/
def loadBigEndianFrom (data : Bytes) (pos : ℕ) : (count value : ℕ) → Option ℕ
  | 0, value => some value
  | count + 1, value => do
    let c ← data[pos]?
    loadBigEndianFrom data (pos + 1) count (u64 (value <<< 8) ||| c.toNat)

/-- `load_big_endian` -/
def loadBigEndian (data : Bytes) (pos count : ℕ) : Option ℕ := loadBigEndianFrom data pos count 0

/-- `static_cast<int64_t>` of a 64-bit word. -/
def int64OfWord (x : ℕ) : ℤ := if x < 2 ^ 63 then x else x - 2 ^ 64

/-- `timestamp_from_ext`, with partial lookups. -/
def timestampFromExt? (data : Bytes) : Option ℕ := do
  if data.length = 0 then return 0
  if (← data[0]?) ≠ 0xFF then return 0
  match data.length - 1 with
  | 4 => return u64 ((← loadBigEndian data 1 4) * nanosPerSecond)
  | 8 =>
    let packed ← loadBigEndian data 1 8
    return u64 ((packed &&& 0x3FFFFFFFF) * nanosPerSecond + packed >>> 34)
  | 12 =>
    let seconds := int64OfWord (← loadBigEndian data 5 8)
    let nanos ← loadBigEndian data 1 4
    return if seconds < 0 then 0 else u64 (castU64 seconds * nanosPerSecond + nanos)
  | _ => return 0

/-- A number is read inside the payload when the payload has its bytes. -/
theorem loadBigEndianFrom_isSome (data : Bytes) (pos count value : ℕ)
    (h : pos + count ≤ data.length) : (loadBigEndianFrom data pos count value).isSome := by
  induction count generalizing pos value with
  | zero => rfl
  | succ count ih =>
    rw [loadBigEndianFrom, List.getElem?_eq_getElem (show pos < data.length by omega),
      Option.bind_eq_bind, Option.bind_some]
    exact ih (pos + 1) _ (by omega)

/-- **No extension is read outside its payload**, of whatever length. -/
theorem timestampFromExt?_isSome (data : Bytes) : (timestampFromExt? data).isSome := by
  have hload : ∀ pos count, pos + count ≤ data.length →
      ∃ v, loadBigEndian data pos count = some v := fun pos count h ↦
    Option.isSome_iff_exists.1 (loadBigEndianFrom_isSome data pos count 0 h)
  rw [timestampFromExt?]
  by_cases h0 : data.length = 0
  · simp only [h0, if_true]
    rfl
  simp only [h0, if_false, Option.bind_eq_bind, Option.bind_some,
    List.getElem?_eq_getElem (show 0 < data.length by omega)]
  split
  · rfl
  split
  case h_1 h =>
    obtain ⟨v, hv⟩ := hload 1 4 (by omega)
    rw [hv]
    rfl
  case h_2 h =>
    obtain ⟨v, hv⟩ := hload 1 8 (by omega)
    rw [hv]
    rfl
  case h_3 h =>
    obtain ⟨v, hv⟩ := hload 5 8 (by omega)
    obtain ⟨w, hw⟩ := hload 1 4 (by omega)
    simp only [hv, hw, Option.bind_some]
    rfl
  case h_4 => rfl

/-- `timestamp_from_ext` -/
def timestampFromExt (data : Bytes) : ℕ := (timestampFromExt? data).get (timestampFromExt?_isSome data)

/-! ### Messages -/

/-- `raw_message` -/
structure RawMessage (D : Type) where
  type : Bytes
  symbol : Bytes
  text : Bytes
  exchange : Bytes
  bidExchange : Bytes
  askExchange : Bytes
  timestamp : ℕ
  code : Int64
  price : D
  size : D
  bidPrice : D
  bidSize : D
  askPrice : D
  askSize : D
  conditions : List Bytes
  trades : List Bytes
  quotes : List Bytes
  deriving DecidableEq

/-- `message_field` -/
inductive MessageField where
  | unknown
  | type | symbol | text | exchange | bidExchange | askExchange
  | timestamp | code
  | price | size | bidPrice | bidSize | askPrice | askSize
  | conditions | trades | quotes
  deriving DecidableEq

/-- `field_of` -/
def fieldOf (key : Bytes) : MessageField :=
  match key with
  | [c] =>
    if c = byte 'T' then .type
    else if c = byte 'S' then .symbol
    else if c = byte 't' then .timestamp
    else if c = byte 'p' then .price
    else if c = byte 's' then .size
    else if c = byte 'x' then .exchange
    else if c = byte 'c' then .conditions
    else .unknown
  | [a, b] =>
    if a = byte 'b' then
      if b = byte 'x' then .bidExchange
      else if b = byte 'p' then .bidPrice
      else if b = byte 's' then .bidSize
      else .unknown
    else if a = byte 'a' then
      if b = byte 'x' then .askExchange
      else if b = byte 'p' then .askPrice
      else if b = byte 's' then .askSize
      else .unknown
    else .unknown
  | [_, _, _] => if key = bytes "msg" then .text else .unknown
  | [_, _, _, _] => if key = bytes "code" then .code else .unknown
  | [_, _, _, _, _, _] =>
    if key = bytes "trades" then .trades
    else if key = bytes "quotes" then .quotes
    else .unknown
  | _ => .unknown

/-- The vectors of a message that `list_` may point to. -/
inductive ListSlot where
  | conditions | trades | quotes
  deriving DecidableEq

/-- `list_for` -/
def listFor : MessageField → Option ListSlot
  | .conditions => some .conditions
  | .trades => some .trades
  | .quotes => some .quotes
  | _ => none

section Visitor

variable {D : Type} [DoubleCasts D]

namespace RawMessage

/-- `clear` -/
def clear : RawMessage D where
  type := []
  symbol := []
  text := []
  exchange := []
  bidExchange := []
  askExchange := []
  timestamp := 0
  code := 0
  price := DoubleCasts.zero
  size := DoubleCasts.zero
  bidPrice := DoubleCasts.zero
  bidSize := DoubleCasts.zero
  askPrice := DoubleCasts.zero
  askSize := DoubleCasts.zero
  conditions := []
  trades := []
  quotes := []

omit [DoubleCasts D] in
/-- Reading through `list_`. -/
def list (m : RawMessage D) : ListSlot → List Bytes
  | .conditions => m.conditions
  | .trades => m.trades
  | .quotes => m.quotes

/-- Writing through `list_`. -/
def setList (m : RawMessage D) (slot : ListSlot) (l : List Bytes) : RawMessage D :=
  match slot with
  | .conditions => { m with conditions := l }
  | .trades => { m with trades := l }
  | .quotes => { m with quotes := l }

/-- `string(value)`, for the field being read. -/
def string (m : RawMessage D) (field : MessageField) (value : Bytes) : RawMessage D :=
  match field with
  | .type => { m with type := value }
  | .symbol => { m with symbol := value }
  | .text => { m with text := value }
  | .exchange => { m with exchange := value }
  | .bidExchange => { m with bidExchange := value }
  | .askExchange => { m with askExchange := value }
  | .conditions => { m with conditions := [value] }
  | .timestamp => { m with timestamp := toNanoseconds value }
  | _ => m

/-- The switch of `number(value)`, for the field being read. -/
def number (m : RawMessage D) (field : MessageField) (value : D) : RawMessage D :=
  match field with
  | .price => { m with price := value }
  | .size => { m with size := value }
  | .bidPrice => { m with bidPrice := value }
  | .bidSize => { m with bidSize := value }
  | .askPrice => { m with askPrice := value }
  | .askSize => { m with askSize := value }
  | .code => { m with code := DoubleCasts.toInt64 value }
  | _ => m

end RawMessage

/-! ### The visitor -/

/-- `message_visitor`, and what its sink has received. -/
structure MessageVisitor (D : Type) where
  message : RawMessage D
  depth : ℕ
  /-- Container depth of the open message; 0 when none. -/
  messageDepth : ℕ
  field : MessageField
  list : Option ListSlot
  expectingKey : Bool
  delivered : List (RawMessage D)

namespace MessageVisitor

/-- `init` -/
def init (v : MessageVisitor D) : MessageVisitor D :=
  { v with depth := 0, messageDepth := 0, field := .unknown, list := none, expectingKey := false }

/-- `at_value` -/
def atValue (v : MessageVisitor D) : Bool :=
  v.messageDepth ≠ 0 ∧ v.depth = v.messageDepth ∧ v.expectingKey = false

/-- `in_list` -/
def inList (v : MessageVisitor D) : Bool :=
  v.list ≠ none ∧ v.depth = v.messageDepth + 1

/-- `number` -/
def number (v : MessageVisitor D) (value : D) : MessageVisitor D :=
  if v.atValue then { v with message := v.message.number v.field value } else v

/-- `visit_str` -/
def visitStr (v : MessageVisitor D) (value : Bytes) : MessageVisitor D :=
  if v.expectingKey then { v with field := fieldOf value }
  else if v.inList then
    match v.list with
    | some slot => { v with message := v.message.setList slot (v.message.list slot ++ [value]) }
    | none => v
  else if v.atValue then { v with message := v.message.string v.field value }
  else v

/-- `visit_ext` -/
def visitExt (v : MessageVisitor D) (data : Bytes) : MessageVisitor D :=
  if v.atValue ∧ v.field = .timestamp then
    { v with message := { v.message with timestamp := timestampFromExt data } }
  else v

/-- The `visit_*` callbacks. -/
def visit (v : MessageVisitor D) : Scalar D → MessageVisitor D
  | .positiveInteger n => v.number (DoubleCasts.ofUInt64 n)
  | .negativeInteger n => v.number (DoubleCasts.ofInt64 n)
  | .float32 x => v.number x
  | .float64 x => v.number x
  | .str s => v.visitStr s
  | .ext data => v.visitExt data
  | .nil => v
  | .boolean _ => v
  | .bin _ => v

/-- `start_array` -/
def startArray (v : MessageVisitor D) : MessageVisitor D :=
  let v := if v.atValue then
      match listFor v.field with
      | some slot => { v with list := some slot, message := v.message.setList slot [] }
      | none => { v with list := none }
    else v
  { v with depth := v.depth + 1 }

/-- `end_array` -/
def endArray (v : MessageVisitor D) : MessageVisitor D :=
  let v := { v with depth := v.depth - 1 }
  if v.depth = v.messageDepth then { v with list := none } else v

/-- `start_map` -/
def startMap (v : MessageVisitor D) : MessageVisitor D :=
  let v := { v with depth := v.depth + 1 }
  if v.messageDepth = 0 then { v with messageDepth := v.depth, message := .clear } else v

/-- `start_map_key`. The field is reset here: a key that is not a string never reaches `visit_str`,
and its value must not land in the slot of the key before. -/
def startMapKey (v : MessageVisitor D) : MessageVisitor D :=
  if v.depth = v.messageDepth then { v with field := .unknown, expectingKey := true } else v

/-- `end_map_key` -/
def endMapKey (v : MessageVisitor D) : MessageVisitor D := { v with expectingKey := false }

/-- `end_map` -/
def endMap (v : MessageVisitor D) : MessageVisitor D :=
  let v := if v.depth = v.messageDepth then
      { v with messageDepth := 0, delivered := v.delivered ++ [v.message] }
    else v
  { v with depth := v.depth - 1 }

/-- One callback. -/
def step (v : MessageVisitor D) : Sax.Event (Scalar D) → MessageVisitor D
  | .visit s => v.visit s
  | .startArray => v.startArray
  | .endArray => v.endArray
  | .startMap => v.startMap
  | .endMap => v.endMap
  | .startMapKey => v.startMapKey
  | .endMapKey => v.endMapKey

/-- Driving the visitor with a whole frame. -/
def drive (v : MessageVisitor D) (frame : Sax.Tree (Scalar D)) : MessageVisitor D :=
  frame.events.foldl step v.init

end MessageVisitor

end Visitor

end Alpaca
