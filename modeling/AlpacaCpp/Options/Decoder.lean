import AlpacaCpp.Data.MarketData
import AlpacaCpp.Options.MessageVisitor

/-!
# The decoder of the option streams

`frame_decoder::decode` and `option_data_stream::decoder`. One visitor, one scratch trade, one scratch
quote and one symbol string serve every frame of a stream, and a frame may stop anywhere: cut off,
invalid, refused, or because a handler threw.

msgpack's parse context is a parameter: what it reports for the bytes of a frame, and how it ends. It
depends on these bytes alone, since `init` resets the parse stack.

`deliveries_run` takes the decoder apart: what a frame delivers is a fold over the messages the
visitor finds in it, and none of them depends on the scratch objects. `MessageVisitor.Agree` then says
that the leftovers of the frame before are overwritten before anything reads them, and so **frames do
not influence one another** (`decode_after_eq_decode_fresh`).

The two halves rest on different facts about the source:

* **the scratch objects** are assigned field by field for every message, except for those fields that no
  option message has. Those stay as they were made (`Decoder.Clean`), and a frame keeps them so, however
  it ends. A vector of conditions is resized and assigned element by element, which leaves nothing of the
  longer one before (`assignFrom_eq`);
* **the visitor** is reset by `init` in all but its message. Two visitors that differ in this alone
  (`Agree`) go on alike, since `start_map` clears the message before anything is stored in it.

A handler that throws leaves `decode`, and nothing of the frame is delivered behind it. The visitor has
then found messages that are never taken (`Follows`), which is harmless for the same reasons.
-/

namespace Alpaca

/-! ### Parsing

The parser is known by its events, which make a walk over some document up to where it stops, and by how
it ends. -/

/-- How `execute` ends, when no callback throws. -/
inductive ParseEnd where
  /-- `PARSE_SUCCESS` -/
  | success
  /-- Any other return value. -/
  | failure
  /-- `msgpack::unpack_error`, with its `what()`. -/
  | refused (what : Bytes)
  deriving DecidableEq

/-- msgpack's parse context, on a whole frame. -/
structure MsgpackParser (D : Type) where
  /-- The callbacks made, in order. -/
  events : Bytes → List (Sax.Event (Scalar D))
  /-- `execute` -/
  finish : Bytes → ParseEnd

/-- The parser walks through some value, possibly not to its end. -/
def MsgpackParser.Walks {D : Type} (parser : MsgpackParser D) : Prop :=
  ∀ data, ∃ frame : Frame D, parser.events data <+: frame.events

/-! ### Deliveries

What reaches the outside is a list of deliveries, and the outside answers each of them: whether it
listens, and whether it throws. Both may depend on what has come before, as handlers may be changed by
handlers. -/

/-- What reaches a handler, or the base class. -/
inductive Delivery (D : Type) where
  | trade (symbol : Bytes) (t : Trade D)
  | quote (symbol : Bytes) (q : Quote D)
  | control (payload : Json D)

/-- The stream around the decoder during one frame. Each component may depend on what the frame has
delivered so far. -/
structure Surroundings (D : Type) where
  /-- Whether `on_trade_` is set. -/
  onTrade : List (Delivery D) → Bool
  /-- Whether `on_quote_` is set. -/
  onQuote : List (Delivery D) → Bool
  /-- Whether whoever takes the last of these deliveries throws. -/
  throws : List (Delivery D) → Bool

/-- `out.resize(count)` -/
def resize (out : List Bytes) (count : ℕ) : List Bytes :=
  out.take count ++ List.replicate (count - out.length) []

/-- The loop of `assign_conditions`, from element `i` on. -/
def assignFrom (out : List Bytes) (i : ℕ) : List Bytes → List Bytes
  | [] => out
  | c :: rest => assignFrom (out.set i c) (i + 1) rest

/-- `assign_conditions` -/
def assignConditions (out views : List Bytes) : List Bytes :=
  assignFrom (resize out views.length) 0 views

theorem length_resize (out : List Bytes) (count : ℕ) : (resize out count).length = count := by
  rw [resize, List.length_append, List.length_take, List.length_replicate]
  omega

/-- The loop that assigns a vector from a position on. -/
theorem assignFrom_eq (views out : List Bytes) (i : ℕ) (h : out.length = i + views.length) :
    assignFrom out i views = out.take i ++ views := by
  induction views generalizing out i with
  | nil => rw [assignFrom, List.append_nil, List.take_of_length_le (by simp [h])]
  | cons c rest ih =>
    have hi : i < out.length := by
      rw [h, List.length_cons]
      omega
    rw [assignFrom, ih _ _ (by rw [List.length_set, h, List.length_cons]; omega)]
    rw [List.take_add_one, List.take_set_of_le (Nat.le_refl i), List.getElem?_set_self hi]
    simp

/-- Nothing of the old conditions is left. -/
theorem assignConditions_eq (out views : List Bytes) : assignConditions out views = views := by
  rw [assignConditions, assignFrom_eq _ _ _ (by rw [length_resize, Nat.zero_add]), List.take_zero,
    List.nil_append]

/-! ### The decoder

The events go to the visitor, and the end of a map takes what it has finished. A message is copied into
the scratch object of its type, field by field as in the source, and handed out from there. -/

section Decoder

variable {D : Type} [DoubleCasts D]

/-- `option_data_stream::decoder` -/
structure Decoder (D : Type) where
  visitor : MessageVisitor D
  symbol : Bytes
  trade : Trade D
  quote : Quote D

/-- A frame under way. -/
structure Decoding (D : Type) where
  decoder : Decoder D
  /-- What the frame has delivered. -/
  deliveries : List (Delivery D)
  /-- An exception has left the decoder. -/
  abandoned : Bool

/-- The payload `on_control` rebuilds. -/
def controlPayload (m : RawMessage D) : Json D :=
  (((((Json.obj []).set (bytes "T") (.str m.type)).set
    (bytes "msg") (.str m.text)).set
    (bytes "code") (.int m.code.toInt)).set
    (bytes "trades") (.arr (m.trades.map .str))).set
    (bytes "quotes") (.arr (m.quotes.map .str))

/-- The type of a message that is not control traffic. -/
inductive TickType where
  | trade | quote
  deriving DecidableEq

/-- The switch of `on_message`. -/
def tickType (type : Bytes) : Option TickType :=
  match type with
  | [c] =>
    if c = byte 't' then some .trade
    else if c = byte 'q' then some .quote
    else none
  | _ => none

/-- The assignments of `on_trade` to the scratch trade. -/
def Trade.overwrite (t : Trade D) (m : RawMessage D) : Trade D :=
  { t with
    timestamp := m.timestamp
    price := m.price
    size := m.size
    exchange := m.exchange
    conditions := assignConditions t.conditions m.conditions }

/-- The assignments of `on_quote` to the scratch quote. -/
def Quote.overwrite (q : Quote D) (m : RawMessage D) : Quote D :=
  { q with
    timestamp := m.timestamp
    bidPrice := m.bidPrice
    bidSize := m.bidSize
    askPrice := m.askPrice
    askSize := m.askSize
    bidExchange := m.bidExchange
    askExchange := m.askExchange
    conditions := assignConditions q.conditions m.conditions }

namespace Decoding

variable (env : Surroundings D)

/-- Handing something to a handler or to the base class. -/
def deliver (d : Decoding D) (x : Delivery D) : Decoding D :=
  { d with deliveries := d.deliveries ++ [x], abandoned := env.throws (d.deliveries ++ [x]) }

/-- `on_trade` -/
def onTrade (d : Decoding D) (m : RawMessage D) : Decoding D :=
  if env.onTrade d.deliveries then
    let trade := d.decoder.trade.overwrite m
    { d with decoder := { d.decoder with symbol := m.symbol, trade := trade } }.deliver env
      (.trade m.symbol trade)
  else d

/-- `on_quote` -/
def onQuote (d : Decoding D) (m : RawMessage D) : Decoding D :=
  if env.onQuote d.deliveries then
    let quote := d.decoder.quote.overwrite m
    { d with decoder := { d.decoder with symbol := m.symbol, quote := quote } }.deliver env
      (.quote m.symbol quote)
  else d

/-- `on_message` -/
def onMessage (d : Decoding D) (m : RawMessage D) : Decoding D :=
  match tickType m.type with
  | some .trade => d.onTrade env m
  | some .quote => d.onQuote env m
  | none => d.deliver env (.control (controlPayload m))

/-- Replacing the visitor. -/
def setVisitor (d : Decoding D) (v : MessageVisitor D) : Decoding D :=
  { d with decoder := { d.decoder with visitor := v } }

/-- `end_map`. A handler that throws leaves the depth as it is. -/
def endMap (d : Decoding D) : Decoding D :=
  let v := d.decoder.visitor
  if v.depth = v.messageDepth then
    let closed := { v with messageDepth := 0, delivered := v.delivered ++ [v.message] }
    let d := (d.setVisitor closed).onMessage env v.message
    if d.abandoned then d else d.setVisitor { closed with depth := closed.depth - 1 }
  else d.setVisitor { v with depth := v.depth - 1 }

/-- One callback. -/
def step (d : Decoding D) (e : Sax.Event (Scalar D)) : Decoding D :=
  if d.abandoned then d
  else
    match e with
    | .endMap => d.endMap env
    | e => d.setVisitor (d.decoder.visitor.step e)

end Decoding

namespace Decoder

/-- The constructor. -/
def fresh : Decoder D where
  visitor := {
    message := .clear
    depth := 0
    messageDepth := 0
    field := .unknown
    list := none
    expectingKey := false
    delivered := [] }
  symbol := []
  trade := .empty
  quote := .empty

/-- The state after `parser_.init()`. What the visitor of the model has delivered is counted from
here. -/
def start (d : Decoder D) : Decoding D where
  decoder := { d with visitor := { d.visitor.init with delivered := [] } }
  deliveries := []
  abandoned := false

/-- The frame, up to where it stops. -/
def run (parser : MsgpackParser D) (env : Surroundings D) (data : Bytes) (d : Decoder D) :
    Decoding D :=
  (parser.events data).foldl (Decoding.step env) d.start

/-- How a frame ends. -/
inductive Outcome where
  /-- `decode` returns `true`. -/
  | decoded
  /-- `decode` returns `false`. -/
  | undecoded
  /-- `msgpack::unpack_error` -/
  | refused (what : Bytes)
  /-- The exception of a handler. -/
  | abandoned
  deriving DecidableEq

/-- `decode`: what the frame delivers, how it ends, and the decoder behind it. -/
def decode (parser : MsgpackParser D) (env : Surroundings D) (data : Bytes) (d : Decoder D) :
    (List (Delivery D) × Outcome) × Decoder D :=
  let run := d.run parser env data
  let outcome := if run.abandoned then .abandoned
    else match parser.finish data with
      | .success => .decoded
      | .failure => .undecoded
      | .refused what => .refused what
  ((run.deliveries, outcome), run.decoder)

end Decoder

/-! ### Deliveries without the scratch objects

A delivery is a function of the message alone, if the fields that are not assigned still have their first
values. The visitor's own list of messages then determines the deliveries of a frame, up to a handler that
throws. -/

/-- The trade of a message. -/
def Trade.ofMessage (m : RawMessage D) : Trade D where
  timestamp := m.timestamp
  price := m.price
  size := m.size
  exchange := m.exchange
  conditions := m.conditions

/-- The quote of a message. -/
def Quote.ofMessage (m : RawMessage D) : Quote D where
  timestamp := m.timestamp
  bidPrice := m.bidPrice
  bidSize := m.bidSize
  askPrice := m.askPrice
  askSize := m.askSize
  bidExchange := m.bidExchange
  askExchange := m.askExchange
  conditions := m.conditions

/-- What a message delivers, behind other deliveries. -/
def Delivery.ofMessage (env : Surroundings D) (before : List (Delivery D)) (m : RawMessage D) :
    Option (Delivery D) :=
  match tickType m.type with
  | some .trade => if env.onTrade before then some (.trade m.symbol (.ofMessage m)) else none
  | some .quote => if env.onQuote before then some (.quote m.symbol (.ofMessage m)) else none
  | none => some (.control (controlPayload m))

/-- The deliveries so far and whether an exception ended them, one message later. -/
def take (env : Surroundings D) (taken : List (Delivery D) × Bool) (m : RawMessage D) :
    List (Delivery D) × Bool :=
  if taken.2 then taken
  else
    match Delivery.ofMessage env taken.1 m with
    | some x => (taken.1 ++ [x], env.throws (taken.1 ++ [x]))
    | none => taken

/-- The fields no frame writes are as they were constructed. -/
structure Decoder.Clean (d : Decoder D) : Prop where
  trade_id : d.trade.id = 0
  trade_tape : d.trade.tape = []
  trade_update : d.trade.update = []
  trade_takerSide : d.trade.takerSide = []
  quote_tape : d.quote.tape = []

omit [DoubleCasts D] in
theorem Decoder.Clean.overwrite_trade {d : Decoder D} (h : d.Clean) (m : RawMessage D) :
    d.trade.overwrite m = .ofMessage m := by
  rw [Trade.overwrite, Trade.ofMessage, assignConditions_eq, h.trade_id, h.trade_tape, h.trade_update,
    h.trade_takerSide]

omit [DoubleCasts D] in
theorem Decoder.Clean.overwrite_quote {d : Decoder D} (h : d.Clean) (m : RawMessage D) :
    d.quote.overwrite m = .ofMessage m := by
  rw [Quote.overwrite, Quote.ofMessage, assignConditions_eq, h.quote_tape]

theorem Decoder.clean_fresh : (fresh : Decoder D).Clean := ⟨rfl, rfl, rfl, rfl, rfl⟩

namespace Decoding

variable {env : Surroundings D}

omit [DoubleCasts D] in
/-- **A message**, delivered from whatever scratch objects. -/
theorem onMessage_spec (env : Surroundings D) {d : Decoding D} (hclean : d.decoder.Clean) (hd : d.abandoned = false)
    (m : RawMessage D) :
    ((d.onMessage env m).deliveries, (d.onMessage env m).abandoned) = take env (d.deliveries, false) m ∧
      (d.onMessage env m).decoder.Clean ∧
      (d.onMessage env m).decoder.visitor = d.decoder.visitor := by
  rw [onMessage, take, Delivery.ofMessage]
  cases tickType m.type with
  | none => exact ⟨rfl, hclean, rfl⟩
  | some type =>
    cases type with
    | trade =>
      simp only [onTrade, hclean.overwrite_trade]
      cases env.onTrade d.deliveries with
      | true => exact ⟨rfl, ⟨rfl, rfl, rfl, rfl, hclean.quote_tape⟩, rfl⟩
      | false => exact ⟨Prod.ext rfl hd, hclean, rfl⟩
    | quote =>
      simp only [onQuote, hclean.overwrite_quote]
      cases env.onQuote d.deliveries with
      | true => exact ⟨rfl, ⟨hclean.trade_id, hclean.trade_tape, hclean.trade_update,
          hclean.trade_takerSide, rfl⟩, rfl⟩
      | false => exact ⟨Prod.ext rfl hd, hclean, rfl⟩

/-- A decoder against a visitor whose sink takes everything. -/
structure Follows (env : Surroundings D) (d : Decoding D) (v : MessageVisitor D) : Prop where
  clean : d.decoder.Clean
  taken : (d.deliveries, d.abandoned) = v.delivered.foldl (take env) ([], false)
  visitor : d.abandoned = false → d.decoder.visitor = v

/-- Only the end of a message delivers. -/
theorem delivered_step_of_ne {e : Sax.Event (Scalar D)} (he : e ≠ .endMap) (v : MessageVisitor D) :
    (v.step e).delivered = v.delivered := by
  cases e with
  | visit s =>
    cases s <;> simp only [MessageVisitor.step, MessageVisitor.visit, MessageVisitor.number,
      MessageVisitor.visitStr, MessageVisitor.visitExt] <;> (try split_ifs) <;> (try split) <;> rfl
  | startArray =>
    simp only [MessageVisitor.step, MessageVisitor.startArray]
    split_ifs <;> (try split) <;> rfl
  | endArray =>
    simp only [MessageVisitor.step, MessageVisitor.endArray]
    split_ifs <;> rfl
  | startMap =>
    simp only [MessageVisitor.step, MessageVisitor.startMap]
    split_ifs <;> rfl
  | endMap => exact absurd rfl he
  | startMapKey =>
    simp only [MessageVisitor.step, MessageVisitor.startMapKey]
    split_ifs <;> rfl
  | endMapKey => rfl

omit [DoubleCasts D] in
/-- What is taken behind an exception is nothing. -/
theorem foldl_take_of_abandoned (taken : List (Delivery D)) (ms : List (RawMessage D)) :
    ms.foldl (take env) (taken, true) = (taken, true) := by
  induction ms with
  | nil => rfl
  | cons m ms ih => exact ih

theorem step_of_abandoned {d : Decoding D} (hd : d.abandoned = true) (e : Sax.Event (Scalar D)) :
    d.step env e = d := by
  cases e <;> exact if_pos hd

theorem step_endMap {d : Decoding D} (hd : d.abandoned = false) : d.step env .endMap = d.endMap env :=
  if_neg (hd ▸ Bool.false_ne_true)

/-- Events other than the end of a map go to the visitor alone. -/
theorem step_of_ne {d : Decoding D} (hd : d.abandoned = false) {e : Sax.Event (Scalar D)}
    (he : e ≠ .endMap) : d.step env e = d.setVisitor (d.decoder.visitor.step e) := by
  cases e with
  | endMap => exact absurd rfl he
  | _ => exact if_neg (hd ▸ Bool.false_ne_true)

omit [DoubleCasts D] in
theorem clean_setVisitor {d : Decoding D} (h : d.decoder.Clean) (v : MessageVisitor D) :
    (d.setVisitor v).decoder.Clean :=
  ⟨h.trade_id, h.trade_tape, h.trade_update, h.trade_takerSide, h.quote_tape⟩

omit [DoubleCasts D] in
/-- **A message that ends is delivered** from the scratch objects as from new ones. -/
theorem Follows.endMap {d : Decoding D} (hd : d.abandoned = false)
    (h : Follows env d d.decoder.visitor) : Follows env (d.endMap env) d.decoder.visitor.endMap := by
  have htaken := h.taken
  rw [hd] at htaken
  rw [Decoding.endMap, MessageVisitor.endMap]
  by_cases hdepth : d.decoder.visitor.depth = d.decoder.visitor.messageDepth
  · dsimp only
    rw [if_pos hdepth, if_pos hdepth]
    generalize hclosed : ({ d.decoder.visitor with
      messageDepth := 0
      delivered := d.decoder.visitor.delivered ++ [d.decoder.visitor.message] } :
        MessageVisitor D) = closed
    obtain ⟨hnew, hclean, hvisitor⟩ := onMessage_spec env (clean_setVisitor h.clean closed) hd
      d.decoder.visitor.message
    have hfold : closed.delivered.foldl (take env) ([], false) =
        take env (d.deliveries, false) d.decoder.visitor.message := by
      rw [← hclosed, List.foldl_append, ← htaken]
      rfl
    split_ifs with habandoned
    · exact ⟨hclean, hnew.trans hfold.symm, fun hfalse ↦ absurd (habandoned.symm.trans hfalse)
        (by decide)⟩
    · exact ⟨clean_setVisitor hclean _, hnew.trans hfold.symm, fun _ ↦ hclosed ▸ rfl⟩
  · dsimp only
    rw [if_neg hdepth, if_neg hdepth]
    exact ⟨clean_setVisitor h.clean _, h.taken, fun _ ↦ rfl⟩

/-- Every event keeps the decoder with the visitor. -/
theorem Follows.step {d : Decoding D} {v : MessageVisitor D} (h : Follows env d v)
    (e : Sax.Event (Scalar D)) : Follows env (d.step env e) (v.step e) := by
  cases hd : d.abandoned with
  -- a handler has thrown: the visitor of the model goes on, and what it finds is not taken
  | true =>
    have htaken := h.taken
    rw [step_of_abandoned hd]
    refine ⟨h.clean, ?_, fun hfalse ↦ absurd (hd.symm.trans hfalse) (by decide)⟩
    by_cases he : e = .endMap
    · subst he
      rw [MessageVisitor.step, MessageVisitor.endMap]
      split_ifs
      · rw [List.foldl_append, ← htaken, hd, foldl_take_of_abandoned]
      · exact htaken
    · rw [delivered_step_of_ne he]
      exact htaken
  | false =>
    obtain rfl := h.visitor hd
    by_cases he : e = .endMap
    · subst he
      rw [step_endMap hd]
      exact h.endMap hd
    · rw [step_of_ne hd he]
      refine ⟨clean_setVisitor h.clean _, ?_, fun _ ↦ rfl⟩
      rw [delivered_step_of_ne he]
      exact h.taken

/-- The events of a frame keep the decoder with the visitor. -/
theorem Follows.foldl {d : Decoding D} {v : MessageVisitor D} (h : Follows env d v)
    (events : List (Sax.Event (Scalar D))) :
    Follows env (events.foldl (Decoding.step env) d) (events.foldl MessageVisitor.step v) := by
  induction events generalizing d v with
  | nil => exact h
  | cons e events ih => exact ih (h.step e)

end Decoding

namespace MessageVisitor

/-- The messages completed by some callbacks after `init`. -/
def messages (v : MessageVisitor D) (events : List (Sax.Event (Scalar D))) : List (RawMessage D) :=
  (events.foldl step { v.init with delivered := [] }).delivered

/-- Two visitors that differ at most in a message that is not open. -/
structure Agree (v w : MessageVisitor D) : Prop where
  depth_eq : v.depth = w.depth
  messageDepth_eq : v.messageDepth = w.messageDepth
  field_eq : v.field = w.field
  list_eq : v.list = w.list
  expectingKey_eq : v.expectingKey = w.expectingKey
  delivered_eq : v.delivered = w.delivered
  message_eq : v.messageDepth ≠ 0 → v.message = w.message

omit [DoubleCasts D] in
/-- Nothing before `init` is left but a message that is not open. -/
theorem agree_init (v w : MessageVisitor D) :
    Agree { v.init with delivered := [] } { w.init with delivered := [] } :=
  ⟨rfl, rfl, rfl, rfl, rfl, rfl, fun h ↦ absurd rfl h⟩

/-- The same visitor with another message. -/
def setMessage (v : MessageVisitor D) (m : RawMessage D) : MessageVisitor D := { v with message := m }

omit [DoubleCasts D] in
theorem agree_setMessage {v : MessageVisitor D} (hclosed : v.messageDepth = 0) (m : RawMessage D) :
    Agree v (v.setMessage m) :=
  ⟨rfl, rfl, rfl, rfl, rfl, rfl, fun h ↦ absurd hclosed h⟩

omit [DoubleCasts D] in
theorem Agree.eq_setMessage {v w : MessageVisitor D} (h : Agree v w) : w = v.setMessage w.message := by
  obtain ⟨m, depth, messageDepth, field, list, expectingKey, delivered⟩ := v
  obtain ⟨rfl, rfl, rfl, rfl, rfl, rfl, -⟩ := h
  rfl

/-- A visit outside a message does not look at the message. -/
theorem agree_visit {v : MessageVisitor D} (hclosed : v.messageDepth = 0) (m : RawMessage D)
    (s : Scalar D) : Agree (v.visit s) ((v.setMessage m).visit s) := by
  have hvalue : ∀ m, (v.setMessage m).atValue = false := fun m ↦
    decide_eq_false fun h ↦ h.1 hclosed
  have hnumber : ∀ x, Agree (v.number x) ((v.setMessage m).number x) := by
    intro x
    rw [number, number, hvalue, show v.atValue = false from hvalue v.message]
    exact agree_setMessage hclosed m
  cases s with
  | str x =>
    have hkey : (v.setMessage m).expectingKey = v.expectingKey := rfl
    have hin : (v.setMessage m).inList = v.inList := rfl
    have hlist : (v.setMessage m).list = v.list := rfl
    show Agree (v.visitStr x) ((v.setMessage m).visitStr x)
    simp only [visitStr, hvalue, show v.atValue = false from hvalue v.message, hkey, hin, hlist,
      Bool.false_eq_true, if_false]
    split_ifs
    · exact ⟨rfl, rfl, rfl, rfl, rfl, rfl, fun h ↦ absurd hclosed h⟩
    · -- an element of a list that was left open goes to a message that is not
      split
      · exact ⟨rfl, rfl, rfl, rfl, rfl, rfl, fun h ↦ absurd hclosed h⟩
      · exact agree_setMessage hclosed m
    · exact agree_setMessage hclosed m
  | ext data =>
    show Agree (v.visitExt data) ((v.setMessage m).visitExt data)
    rw [visitExt, visitExt, hvalue, show v.atValue = false from hvalue v.message]
    exact agree_setMessage hclosed m
  | positiveInteger i => exact hnumber _
  | negativeInteger i => exact hnumber _
  | float32 x => exact hnumber x
  | float64 x => exact hnumber x
  | _ => exact agree_setMessage hclosed m

/-- **One callback.** A message that is not open is not read, unless a map ends that never began. -/
theorem Agree.step {v w : MessageVisitor D} (h : Agree v w) {e : Sax.Event (Scalar D)}
    (he : e = .endMap → v.depth ≠ 0) : Agree (v.step e) (w.step e) := by
  rw [h.eq_setMessage]
  by_cases hopen : v.messageDepth ≠ 0
  · rw [← h.message_eq hopen]
    exact ⟨rfl, rfl, rfl, rfl, rfl, rfl, fun _ ↦ rfl⟩
  generalize w.message = m
  clear h w
  have hclosed : v.messageDepth = 0 := not_not.1 hopen
  have hvalue : ∀ m, (v.setMessage m).atValue = false := fun m ↦ decide_eq_false fun h ↦ h.1 hclosed
  cases e with
  | visit s => exact agree_visit hclosed m s
  | startArray =>
    simp only [MessageVisitor.step, startArray, hvalue, show v.atValue = false from hvalue v.message]
    exact ⟨rfl, rfl, rfl, rfl, rfl, rfl, fun h ↦ absurd hclosed h⟩
  | endArray =>
    by_cases hdepth : v.depth - 1 = v.messageDepth
    all_goals simp only [MessageVisitor.step, endArray, setMessage, hdepth, if_true, if_false]
    · exact ⟨rfl, rfl, rfl, rfl, rfl, rfl, fun h ↦ absurd hclosed h⟩
    · exact ⟨rfl, rfl, rfl, rfl, rfl, rfl, fun h ↦ absurd hclosed h⟩
  | startMap =>
    simp only [MessageVisitor.step, startMap, setMessage, hclosed, if_true]
    exact ⟨rfl, rfl, rfl, rfl, rfl, rfl, fun _ ↦ rfl⟩
  | endMap =>
    have hdepth : v.depth ≠ 0 := he rfl
    simp only [MessageVisitor.step, endMap, setMessage, hclosed, hdepth, if_false]
    exact ⟨rfl, rfl, rfl, rfl, rfl, rfl, fun h ↦ absurd rfl h⟩
  | startMapKey =>
    by_cases hdepth : v.depth = v.messageDepth
    all_goals simp only [MessageVisitor.step, startMapKey, setMessage, hdepth, if_true, if_false]
    · exact ⟨rfl, rfl, rfl, rfl, rfl, rfl, fun h ↦ absurd hclosed h⟩
    · exact ⟨rfl, rfl, rfl, rfl, rfl, rfl, fun h ↦ absurd hclosed h⟩
  | endMapKey => exact ⟨rfl, rfl, rfl, rfl, rfl, rfl, fun h ↦ absurd hclosed h⟩

/-- The depth is the nesting. -/
theorem depth_step {v : MessageVisitor D} {e : Sax.Event (Scalar D)} {n : ℕ}
    (h : Sax.nesting v.depth e = some n) : (v.step e).depth = n := by
  -- callback by callback; each counts one level up, one down, or none
  obtain ⟨m, depth, messageDepth, field, list, expectingKey, delivered⟩ := v
  cases e with
  | visit s =>
    have hdepth : depth = n := by cases depth <;> exact Option.some_inj.1 h
    rw [← hdepth]
    cases s <;> simp only [MessageVisitor.step, visit, number, visitStr, visitExt] <;>
      (try split_ifs) <;> (try split) <;> rfl
  | startArray =>
    rw [← Option.some_inj.1 h]
    simp only [MessageVisitor.step, startArray]
    split_ifs <;> (try split) <;> rfl
  | startMap =>
    rw [← Option.some_inj.1 h]
    simp only [MessageVisitor.step, startMap]
    split_ifs <;> rfl
  | endArray =>
    cases depth with
    | zero => exact absurd h (by simp [Sax.nesting])
    | succ depth =>
      rw [← Option.some_inj.1 h]
      simp only [MessageVisitor.step, endArray]
      split_ifs <;> rfl
  | endMap =>
    cases depth with
    | zero => exact absurd h (by simp [Sax.nesting])
    | succ depth =>
      rw [← Option.some_inj.1 h]
      simp only [MessageVisitor.step, endMap]
      split_ifs <;> rfl
  | startMapKey =>
    have hdepth : depth = n := by cases depth <;> exact Option.some_inj.1 h
    rw [← hdepth]
    simp only [MessageVisitor.step, startMapKey]
    split_ifs <;> rfl
  | endMapKey => cases depth <;> exact Option.some_inj.1 h

/-- **A run of callbacks.** In nested input no map ends that never began. -/
theorem Agree.foldl {v w : MessageVisitor D} (h : Agree v w) {events : List (Sax.Event (Scalar D))}
    (hnested : Sax.Nested v.depth events) :
    Agree (events.foldl MessageVisitor.step v) (events.foldl MessageVisitor.step w) := by
  induction events generalizing v w with
  | nil => exact h
  | cons e events ih =>
    obtain ⟨n, hn, hrest⟩ := Sax.nested_cons.1 hnested
    refine ih (h.step ?_) (depth_step hn ▸ hrest)
    rintro rfl hzero
    rw [hzero] at hn
    exact absurd hn (by simp [Sax.nesting])

/-- The messages of nested input do not depend on the visitor that reads it. -/
theorem messages_eq (v w : MessageVisitor D) {events : List (Sax.Event (Scalar D))}
    (hnested : Sax.Nested 0 events) : v.messages events = w.messages events :=
  ((agree_init v w).foldl hnested).delivered_eq

end MessageVisitor

/-! ### Frames

The decoder after any frames is clean, and its visitor agrees with a fresh one as soon as `init` has run.
So the next frame delivers what it would deliver on a decoder of its own. -/

namespace Decoder

variable (parser : MsgpackParser D)

theorem follows_run (env : Surroundings D) (data : Bytes) {d : Decoder D} (h : d.Clean) :
    Decoding.Follows env (d.run parser env data)
      ((parser.events data).foldl MessageVisitor.step { d.visitor.init with delivered := [] }) :=
  Decoding.Follows.foldl ⟨Decoding.clean_setVisitor (d := ⟨d, [], false⟩) h _, rfl, fun _ ↦ rfl⟩ _

/-- **The decoder taken apart**: a frame delivers what its messages deliver, whatever the scratch
objects hold. -/
theorem deliveries_run (env : Surroundings D) (data : Bytes) {d : Decoder D} (h : d.Clean) :
    ((d.run parser env data).deliveries, (d.run parser env data).abandoned) =
      (d.visitor.messages (parser.events data)).foldl (take env) ([], false) :=
  (follows_run parser env data h).taken

/-- The decoder behind a history of frames. -/
def after (history : List (Bytes × Surroundings D)) : Decoder D :=
  history.foldl (fun d frame ↦ (d.decode parser frame.2 frame.1).2) fresh

/-- A decoder stays clean whatever frames it has had. -/
theorem clean_foldl_decode {d : Decoder D} (h : d.Clean) (history : List (Bytes × Surroundings D)) :
    (history.foldl (fun d frame ↦ (d.decode parser frame.2 frame.1).2) d).Clean := by
  induction history generalizing d with
  | nil => exact h
  | cons frame history ih => exact ih (follows_run parser frame.2 frame.1 h).clean

/-- **Frames do not influence one another.** Behind any history of frames, complete or not, the next
one delivers and ends as it would for a decoder just constructed. -/
theorem decode_after_eq_decode_fresh (hwalks : parser.Walks)
    (history : List (Bytes × Surroundings D)) (env : Surroundings D) (data : Bytes) :
    ((after parser history).decode parser env data).1 = (fresh.decode parser env data).1 := by
  obtain ⟨frame, hprefix⟩ := hwalks data
  have hclean : (after parser history).Clean := clean_foldl_decode parser clean_fresh history
  have hafter := deliveries_run parser env data hclean
  have hfresh := deliveries_run parser env data (clean_fresh (D := D))
  rw [MessageVisitor.messages_eq _ fresh.visitor (Sax.Nested.of_prefix hprefix), ← hfresh] at hafter
  obtain ⟨hdeliveries, habandoned⟩ := Prod.mk.inj hafter
  simp only [decode, hdeliveries, habandoned]

/-- A trade for `A`, cut off before its third entry. -/
def cutFrame : Bytes := [0x91, 0x83, 0xA1, 0x54, 0xA1, 0x74, 0xA1, 0x53, 0xA1, 0x41]

/-- A trade with no symbol. -/
def bareTradeFrame : Bytes := [0x91, 0x81, 0xA1, 0x54, 0xA1, 0x74]

/-- The parser on these two frames. -/
def tableParser : MsgpackParser ℚ where
  events data :=
    if data = cutFrame then
      [.startArray, .startMap, .startMapKey, .visit (.str (bytes "T")), .endMapKey,
        .visit (.str (bytes "t")), .startMapKey, .visit (.str (bytes "S")), .endMapKey,
        .visit (.str (bytes "A")), .startMapKey]
    else if data = bareTradeFrame then
      (Sax.Tree.array [.map [(MessageVisitor.text "T", MessageVisitor.text "t")]]).events
    else []
  finish data := if data = bareTradeFrame then .success else .failure

/-- What a parser of two known frames reports is the beginning of an object. -/
theorem tableParser_walks : tableParser.Walks := by
  intro data
  by_cases hcut : data = cutFrame
  · refine ⟨.array [.map [(MessageVisitor.text "T", MessageVisitor.text "t"),
      (MessageVisitor.text "S", MessageVisitor.text "A"), (.array [], .array [])]], ?_⟩
    simp only [tableParser, if_pos hcut]
    exact ⟨_, rfl⟩
  · by_cases hbare : data = bareTradeFrame
    · exact ⟨_, by simp only [tableParser, if_neg hcut, if_pos hbare]; exact List.prefix_rfl⟩
    · exact ⟨.array [], by simp only [tableParser, if_neg hcut, if_neg hbare]; exact List.nil_prefix⟩

/-- Handlers that are set and do not throw. -/
def calm : Surroundings ℚ where
  onTrade _ := true
  onQuote _ := true
  throws _ := false

/-- The symbol of the frame that was cut off is gone. -/
theorem decode_after_cutFrame :
    ((after tableParser [(cutFrame, calm)]).decode tableParser calm bareTradeFrame).1 =
        (fresh.decode tableParser calm bareTradeFrame).1 ∧
      (fresh.decode tableParser calm bareTradeFrame).1 = ([.trade [] .empty], .decoded) :=
  ⟨decode_after_eq_decode_fresh tableParser tableParser_walks [(cutFrame, calm)] calm bareTradeFrame,
    rfl⟩

end Decoder

end Decoder

end Alpaca
