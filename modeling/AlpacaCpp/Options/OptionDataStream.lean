import AlpacaCpp.Options.OptionMessages

/-!
# Option streams against JSON streams

`option_data_stream::handle_frame`: frames that cannot be JSON text go to the decoder, whose trades and
quotes reach the handlers directly and whose control messages are rebuilt as JSON for
`data_stream_base::handle_payload`. `jsonFrame` is what a JSON stream does with text, where trades and
quotes go through their `from_json`.

**A well-typed message has the same effect either way** (`common_handleFrame_eq`). `common` leaves out
what an option message does not have: trade ids, tapes, channels other than trades and quotes.

Both paths are brought down to the message. On the one side the bytes pack it (`Packs`), the visitor makes
a raw message of it, and `effect` says what that leads to; on the other the text writes it (`Writes`), and
its fields are read by macros. The field lemmas of `Options/OptionMessages` then say that a trade, a
quote, an error or a list of symbols comes out the same. For control traffic the object that is rebuilt
has the same type and the same members as the one that was written, so `handle_payload` cannot tell them
apart.

The decoder may have any history. It is the same object for all frames of a stream, and what earlier
frames have left in it does not show, by the results of `Options/Decoder`.
-/

namespace Alpaca

/-! ### What both paths hand over

The outputs have to be comparable: a trade of the REST model has fields that no option message carries,
and `common` forgets them on both sides. The order of the outputs, the symbols and the exceptions stay. -/

section Common

variable {D : Type}

/-- The fields of an option trade. -/
def Trade.common (t : Trade D) : Trade D := { t with id := 0, tape := [], update := [], takerSide := [] }

/-- The fields of an option quote. -/
def Quote.common (q : Quote D) : Quote D := { q with tape := [] }

/-- The channels of an option stream. -/
def Subscriptions.common (s : Subscriptions) : Subscriptions where
  trades := s.trades
  quotes := s.quotes

/-- An output, as far as option streams have it. -/
def StreamOutput.common : StreamOutput (StockMessage D) → StreamOutput (StockMessage D)
  | .message symbol (.trade t) => .message symbol (.trade t.common)
  | .message symbol (.quote q) => .message symbol (.quote q.common)
  | .subscription s => .subscription s.common
  | output => output

/-- The effect of a frame, as far as option streams have it. -/
def Handling.common (h : Handling (StockMessage D)) : Handling (StockMessage D) where
  outputs := h.outputs.map StreamOutput.common
  thrown := h.thrown

end Common

namespace OptionDataStream

variable {D : Type}

section Stream

variable [DoubleCasts D] (lib : JsonLibrary D) (encode : Json D → Except Bytes Bytes)

/-- `dispatch`: no control message has a type of its own. -/
def dispatch : Bytes → Json D → Handling (StockMessage D) := fun _ _ ↦ ⟨[], none⟩

/-- `handle_payload` of an option stream, whose frames are MessagePack. -/
def handle (s : StreamSetting) (payload : Json D) : Handling (StockMessage D) :=
  handlePayload lib encode dispatch s payload

/-- What the decoder calls. -/
def onDelivery (s : StreamSetting) : Delivery D → Handling (StockMessage D)
  | .trade symbol t => ⟨[.message symbol (.trade t)], none⟩
  | .quote symbol q => ⟨[.message symbol (.quote q)], none⟩
  | .control payload => handle lib encode s payload

/-- The stream as the decoder finds it, when `env i` is what is set behind `i` deliveries. -/
def surroundings (env : ℕ → StreamSetting) : Surroundings D where
  onTrade before := (env before.length).isSet .trade
  onQuote before := (env before.length).isSet .quote
  throws deliveries :=
    match deliveries.getLast? with
    | some x => (onDelivery lib encode (env (deliveries.length - 1)) x).thrown.isSome
    | none => false

/-- `handle_frame`. An empty frame has no first byte to tell the codec by, and is left to the JSON
path. -/
def handleFrame (parser : MsgpackParser D) (env : ℕ → StreamSetting) (data : Bytes) (d : Decoder D) :
    Handling (StockMessage D) × Decoder D :=
  if data.headD 0 < 0x80 then
    (Alpaca.handleFrame lib (fun i ↦ handle lib encode (env i)) (env 0) data, d)
  else
    let ((deliveries, outcome), d) := d.decode parser (surroundings lib encode env) data
    let handlings := deliveries.mapIdx fun i x ↦ onDelivery lib encode (env i) x
    let outputs := (handlings.map Handling.outputs).flatten
    let report (what : Bytes) : Handling (StockMessage D) :=
      ⟨outputs ++ (reportError (M := StockMessage D) (env deliveries.length)
        ⟨0, bytes "malformed stream frame: " ++ what⟩).outputs, none⟩
    match outcome with
    | .decoded => (⟨outputs, none⟩, d)
    | .undecoded => (report (bytes "truncated or invalid MessagePack"), d)
    | .refused what => (report what, d)
    | .abandoned => (⟨outputs, handlings.getLast?.bind (·.thrown)⟩, d)

end Stream

/-- The same stream over JSON: control messages as above, and trades and quotes through `symbol_of`
and `from_json`. -/
def jsonFrame [Doubles D] (lib : JsonLibrary D) (encode : Json D → Except Bytes Bytes)
    (env : ℕ → StreamSetting) (text : Bytes) : Handling (StockMessage D) :=
  Alpaca.handleFrame lib
    (fun i ↦ handlePayload lib encode (StockDataStream.dispatch lib (env i)) (env i)) (env 0) text

end OptionDataStream

/-! ### One message in two encodings

A message is a list of entries. `Packs` and `Writes` say of the two libraries that their bytes and their
text are read as these entries; about anything else they read nothing is assumed. -/

/-- A frame that carries a message and nothing else. -/
structure MsgpackParser.Packs {D : Type} (parser : MsgpackParser D) (data : Bytes)
    (m : WireMessage D) : Prop where
  binary : ¬data.headD 0 < 0x80
  frame : ∃ frame : Frame D, frame.outerMaps = [m.pack] ∧ parser.events data = frame.events
  finish : parser.finish data = .success

/-- JSON text that carries a message and nothing else. -/
def JsonLibrary.Writes {D : Type} (lib : JsonLibrary D) (text : Bytes) (m : WireMessage D) : Prop :=
  ∃ j, lib.parse text = .ok j ∧ StockDataStream.framePayloads j = [m.json]

namespace OptionDataStream

section Packed

variable {D : Type} [DoubleCasts D] {parser : MsgpackParser D} {data : Bytes} {m : WireMessage D}

/-- The visitor finds one message in such a frame. -/
theorem messages_of_packs (hdata : parser.Packs data m) (v : MessageVisitor D) :
    v.messages (parser.events data) = [RawMessage.ofEntries m.pack] := by
  obtain ⟨frame, houter, hevents⟩ := hdata.frame
  have hkeys : MessageVisitor.ScalarKeys m.pack := by
    intro e he
    obtain ⟨field, -, rfl⟩ := List.mem_map.1 he
    exact ⟨_, rfl⟩
  have hdrive := MessageVisitor.delivered_drive { v with delivered := [] } frame
  rw [houter, List.map_singleton, hkeys.ofAnyEntries_eq, ← List.nil_append
    [RawMessage.ofEntries m.pack]] at hdrive
  rw [MessageVisitor.messages, hevents]
  exact hdrive

variable (lib : JsonLibrary D) (encode : Json D → Except Bytes Bytes) (env : ℕ → StreamSetting)

/-- What the first message of a frame does. -/
def effect (r : RawMessage D) : Handling (StockMessage D) :=
  match Delivery.ofMessage (surroundings lib encode env) [] r with
  | some x => onDelivery lib encode (env 0) x
  | none => ⟨[], none⟩

/-- A trade is delivered if there is a handler for it. -/
theorem effect_of_trade {r : RawMessage D} (h : r.type = bytes "t") : effect lib encode env r =
    if (env 0).isSet .trade then ⟨[.message r.symbol (.trade (.ofMessage r))], none⟩
    else ⟨[], none⟩ := by
  rw [effect, Delivery.ofMessage, h]
  show (match (if (env 0).isSet .trade then some (Delivery.trade r.symbol (.ofMessage r)) else none)
    with | some x => onDelivery lib encode (env 0) x | none => ⟨[], none⟩) = _
  rcases (env 0).isSet .trade <;> rfl

/-- A quote is delivered if there is a handler for it. -/
theorem effect_of_quote {r : RawMessage D} (h : r.type = bytes "q") : effect lib encode env r =
    if (env 0).isSet .quote then ⟨[.message r.symbol (.quote (.ofMessage r))], none⟩
    else ⟨[], none⟩ := by
  rw [effect, Delivery.ofMessage, h]
  show (match (if (env 0).isSet .quote then some (Delivery.quote r.symbol (.ofMessage r)) else none)
    with | some x => onDelivery lib encode (env 0) x | none => ⟨[], none⟩) = _
  rcases (env 0).isSet .quote <;> rfl

theorem effect_of_control {r : RawMessage D} (h : tickType r.type = none) :
    effect lib encode env r = handle lib encode (env 0) (controlPayload r) := by
  rw [effect, Delivery.ofMessage, h]
  rfl

/-- Such a frame does what its message does, behind any frames before it. -/
theorem handleFrame_of_packs (hdata : parser.Packs data m) {d : Decoder D} (hclean : d.Clean) :
    (handleFrame lib encode parser env data d).1 =
      effect lib encode env (RawMessage.ofEntries m.pack) := by
  have hrun := Decoder.deliveries_run parser (surroundings lib encode env) data hclean
  rw [messages_of_packs hdata, List.foldl_cons, List.foldl_nil, take, if_neg Bool.false_ne_true]
    at hrun
  rw [handleFrame, if_neg hdata.binary, effect]
  generalize Delivery.ofMessage (surroundings lib encode env) [] (RawMessage.ofEntries m.pack) = found
    at hrun ⊢
  rcases found with - | x
  · obtain ⟨hdeliveries, habandoned⟩ := Prod.mk.inj hrun
    simp only [Decoder.decode, hdeliveries, habandoned, hdata.finish]
    rfl
  · have hdeliveries : (d.run parser (surroundings lib encode env) data).deliveries = [x] :=
      congrArg Prod.fst hrun
    have habandoned : (d.run parser (surroundings lib encode env) data).abandoned =
        (onDelivery lib encode (env 0) x).thrown.isSome := congrArg Prod.snd hrun
    have hflat : ([onDelivery lib encode (env 0) x].map Handling.outputs).flatten =
        (onDelivery lib encode (env 0) x).outputs := List.append_nil _
    simp only [Decoder.decode, hdeliveries, habandoned, hdata.finish, List.mapIdx_cons,
      List.mapIdx_nil, hflat]
    rcases onDelivery lib encode (env 0) x with ⟨outputs, - | what⟩ <;> rfl

end Packed

/-! ### Control messages, rebuilt

`option_data_stream` puts code, text and lists back into an object, with all keys present. `from_json`
then finds an empty list where the text had no key, which gives the same model. -/

section Rebuilt

variable {D : Type} (lib : JsonLibrary D) (r : RawMessage D)

/-- The error in a rebuilt payload. -/
theorem fromJson_error_controlPayload [DoubleCasts D] :
    StreamError.fromJson lib (controlPayload r) {} = .ok ⟨i32 r.code.toInt, r.text⟩ := by
  have hread : StreamError.fromJson lib (controlPayload r) {} =
      .ok ⟨i32 (r.code.toInt.bmod (2 ^ 64)), r.text⟩ := rfl
  rw [hread, show (2 : ℕ) ^ 64 = 18446744073709551616 from rfl, Int64.toInt_bmod]

/-- The subscriptions in a rebuilt payload. -/
theorem fromJson_subscriptions_controlPayload :
    Subscriptions.fromJson lib (controlPayload r) {} =
      .ok { trades := r.trades, quotes := r.quotes } := by
  have hread : ∀ {key : Bytes} {l : List Bytes} (_ : (controlPayload r).member? key =
      some (.arr (l.map .str))) (assign : Subscriptions → List Bytes → Subscriptions) (o : Subscriptions),
      readVariable lib key Json.getStrings assign (controlPayload r) o = .ok (assign o l) := by
    intro key l hmem assign o
    rw [readVariable, hmem]
    simp only [Json.isNull, getStrings_texts]
    rfl
  rw [Subscriptions.fromJson, fromLines_cons (hread (l := r.trades) rfl _ _),
    fromLines_cons (hread (l := r.quotes) rfl _ _)]
  rfl

end Rebuilt

/-! ### The two paths

By the type of the message. A trade or a quote is taken from the raw message on the one path and from the
JSON object on the other, a control message goes through `handle_payload` on both, and a message of
another type does nothing on either. -/

section Paths

variable {D : Type} {lib : JsonLibrary D} {m : WireMessage D}

theorem prints_of_writes (hlib : lib.ParsedPrints) {text : Bytes} (htext : lib.Writes text m) :
    lib.Prints m.json := by
  obtain ⟨j, hparse, hpayloads⟩ := htext
  exact StockDataStream.prints_of_mem_framePayloads hlib hparse (hpayloads ▸ List.mem_singleton_self _)

/-- The symbol, as a field. -/
theorem symbolOf_eq (j : Json D) :
    symbolOf j = (j.variableAt (bytes "S") Json.getString).getD [] := by
  rw [symbolOf, Json.variableAt]
  rcases j.member? (bytes "S") with - | (- | - | - | - | s | - | -) <;> rfl

variable [Doubles D]

/-- A text frame with one message is that message, handled. -/
theorem jsonFrame_of_writes {text : Bytes} (htext : lib.Writes text m)
    (encode : Json D → Except Bytes Bytes) (env : ℕ → StreamSetting) :
    jsonFrame lib encode env text =
      handlePayload lib encode (StockDataStream.dispatch lib (env 0)) (env 0) m.json := by
  obtain ⟨j, hparse, hpayloads⟩ := htext
  rw [jsonFrame, StockDataStream.handleFrame_of_parse _ _ hparse, hpayloads, handleAll_singleton]

/-- A trade as `from_json` reads it, and as the visitor does. -/
theorem exists_trade (hj : lib.Prints m.json) (hm : MessageKind.trade.WellTyped m) :
    ∃ t, Trade.fromJson lib m.json .empty = .ok t ∧
      t.common = .ofMessage (RawMessage.ofEntries m.pack) := by
  have hfields := hm.holds
  simp only [MessageKind.fields, List.forall_mem_cons] at hfields
  obtain ⟨-, ht, hp, hs, hx, hc, -⟩ := hfields
  refine ⟨_, Trade.fromJson_eq hj (WireMessage.dated_json ht) (WireMessage.textConditions_json hc) _, ?_⟩
  simp only [Trade.common, Trade.empty, WireMessage.instant_agree ht, WireMessage.number_agree lib hp,
    WireMessage.number_agree lib hs, WireMessage.text_agree hx, WireMessage.conditions_agree hc]
  rfl

/-- A quote as `from_json` reads it, and as the visitor does. -/
theorem exists_quote (hj : lib.Prints m.json) (hm : MessageKind.quote.WellTyped m) :
    ∃ q, Quote.fromJson lib m.json .empty = .ok q ∧
      q.common = .ofMessage (RawMessage.ofEntries m.pack) := by
  have hfields := hm.holds
  simp only [MessageKind.fields, List.forall_mem_cons] at hfields
  obtain ⟨-, ht, hbx, hbp, hbs, hax, hap, has, hc, -⟩ := hfields
  refine ⟨_, Quote.fromJson_eq hj (WireMessage.dated_json ht) (WireMessage.textConditions_json hc) _, ?_⟩
  simp only [Quote.common, Quote.empty, WireMessage.instant_agree ht, WireMessage.text_agree hbx,
    WireMessage.number_agree lib hbp, WireMessage.number_agree lib hbs, WireMessage.text_agree hax,
    WireMessage.number_agree lib hap, WireMessage.number_agree lib has,
    WireMessage.conditions_agree hc]
  rfl

/-- An error as `from_json` reads it, and as the visitor does. -/
theorem fromJson_error [LawfulDoubleCasts D] (hj : lib.Prints m.json)
    (hm : MessageKind.error.WellTyped m) : StreamError.fromJson lib m.json {} =
      StreamError.fromJson lib (controlPayload (RawMessage.ofEntries m.pack)) {} := by
  have hfields := hm.holds
  simp only [MessageKind.fields, List.forall_mem_cons] at hfields
  obtain ⟨hcode, hmsg, -⟩ := hfields
  have hcast : ∀ v : Option ℤ, (v.map i32).getD 0 = i32 (v.getD 0) := by
    rintro (- | n) <;> rfl
  rw [StreamError.fromJson_eq hj, fromJson_error_controlPayload, hcast, WireMessage.code_agree lib hcode,
    WireMessage.text_agree hmsg]
  rfl

omit [Doubles D] in
/-- Subscriptions as `from_json` reads them, and as the visitor does. -/
theorem exists_subscriptions [DoubleCasts D] (hj : lib.Prints m.json)
    (hm : MessageKind.subscription.WellTyped m) :
    ∃ s s', Subscriptions.fromJson lib m.json {} = .ok s ∧
      Subscriptions.fromJson lib (controlPayload (RawMessage.ofEntries m.pack)) {} = .ok s' ∧
      s.common = s'.common := by
  have hfields := hm.holds
  simp only [MessageKind.fields, List.forall_mem_cons] at hfields
  obtain ⟨htrades, hquotes, -⟩ := hfields
  refine ⟨_, _, Subscriptions.fromJson_eq hj _, fromJson_subscriptions_controlPayload lib _, ?_⟩
  simp only [Subscriptions.common, WireMessage.list_agree htrades, WireMessage.list_agree hquotes]
  rfl

omit [Doubles D] in
theorem member?_type {kind : MessageKind} (hm : kind.WellTyped m) :
    m.json.member? (bytes "T") = some (.str kind.type) := by
  rw [WireMessage.member?_json, hm.type_eq]
  rfl

/-- The symbol as `symbol_of` reads it, and as the visitor does. -/
theorem symbolOf_json (h : m.Holds (bytes "S") .text) :
    symbolOf m.json = (RawMessage.ofEntries m.pack).symbol := by
  rw [symbolOf_eq, WireMessage.text_agree h]
  rfl

/-- The type of a message, packed. -/
theorem type_ofEntries {kind : MessageKind} (hm : kind.WellTyped m) :
    (RawMessage.ofEntries m.pack).type = kind.type := by
  show lastAccepted (bytes "T") asText [] m.pack = kind.type
  rw [WireMessage.lastAccepted_pack, hm.type_eq]
  rfl

/-- **A well-typed message has the same effect** packed as MessagePack, behind any frames before it, and
written as JSON. -/
theorem common_handleFrame_eq [LawfulDoubleCasts D] (hlib : lib.ParsedPrints)
    (encode : Json D → Except Bytes Bytes) (env : ℕ → StreamSetting) {kind : MessageKind}
    (hm : kind.WellTyped m) {parser : MsgpackParser D} (history : List (Bytes × Surroundings D))
    {data text : Bytes} (hdata : parser.Packs data m) (htext : lib.Writes text m) :
    (handleFrame lib encode parser env data (Decoder.after parser history)).1.common =
      (jsonFrame lib encode env text).common := by
  have hj := prints_of_writes hlib htext
  have hclean : (Decoder.after parser history).Clean :=
    Decoder.clean_foldl_decode parser Decoder.clean_fresh history
  have htype := type_ofEntries hm
  have hpayload : ∀ r : RawMessage D, r.type = kind.type →
      (controlPayload r).member? (bytes "T") = some (.str kind.type) := by
    intro r hr
    rw [← hr]
    rfl
  rw [handleFrame_of_packs lib encode env hdata hclean, jsonFrame_of_writes htext]
  cases kind with
  -- trades and quotes: `effect` and the `from_json` make the same value of the same fields
  | trade =>
    obtain ⟨t, ht, hcommon⟩ := exists_trade hj hm
    have hsymbol := symbolOf_json (hm.holds (bytes "S", .text) (by simp [MessageKind.fields]))
    have hjson : handlePayload lib encode (StockDataStream.dispatch lib (env 0)) (env 0) m.json =
        StockDataStream.deliver lib (env 0) .trade m.json := by
      rw [handlePayload, member?_type hm]
      rfl
    rw [effect_of_trade lib encode env htype, hjson, StockDataStream.deliver, StockType.read, ht, hsymbol,
      ← hcommon]
    rcases (env 0).isSet .trade <;> rfl
  | quote =>
    obtain ⟨q, hq, hcommon⟩ := exists_quote hj hm
    have hsymbol := symbolOf_json (hm.holds (bytes "S", .text) (by simp [MessageKind.fields]))
    have hjson : handlePayload lib encode (StockDataStream.dispatch lib (env 0)) (env 0) m.json =
        StockDataStream.deliver lib (env 0) .quote m.json := by
      rw [handlePayload, member?_type hm]
      rfl
    rw [effect_of_quote lib encode env htype, hjson, StockDataStream.deliver, StockType.read, hq, hsymbol,
      ← hcommon]
    rcases (env 0).isSet .quote <;> rfl
  -- control traffic: the JSON is rebuilt, and read by the same code
  | success =>
    have hmsg := WireMessage.text_agree (hm.holds (bytes "msg", .text) (by simp [MessageKind.fields]))
    rw [effect_of_control lib encode env (htype ▸ rfl), handle, handlePayload_success (hpayload _ htype),
      handlePayload_success (member?_type hm), hmsg]
    rfl
  | error =>
    have hread := fromJson_error hj hm
    rw [effect_of_control lib encode env (htype ▸ rfl), handle, handlePayload_error (hpayload _ htype),
      handlePayload_error (member?_type hm), hread]
  | subscription =>
    obtain ⟨s, s', hs, hs', hcommon⟩ := exists_subscriptions hj hm
    rw [effect_of_control lib encode env (htype ▸ rfl), handle,
      handlePayload_subscription (hpayload _ htype), handlePayload_subscription (member?_type hm), hs, hs']
    rcases (env 0).onSubscription with - | -
    · rfl
    · simp [Handling.common, StreamOutput.common, hcommon]

end Paths

/-! ### A trade in both encodings -/

theorem nodup_tradeMessage : ([bytes "T", bytes "t", bytes "p", bytes "zz", bytes "S"]).Nodup := by
  decide

/-- A trade of `A` at the price 3, one second after the epoch, with a field the SDK does not know. -/
def tradeMessage : WireMessage ℚ where
  entries := [(bytes "T", .text (bytes "t")), (bytes "t", .instant 1000000000 .timestamp32),
    (bytes "p", .integer 3), (bytes "zz", .other (.scalar (.boolean true)) (.bool true)),
    (bytes "S", .text (bytes "A"))]
  nodup := nodup_tradeMessage

/-- The same in an array, as MessagePack. -/
def tradeFrame : Bytes := [0x91, 0x85, 0xA1, 0x54, 0xA1, 0x74, 0xA1, 0x74, 0xD6, 0xFF, 0x00, 0x00, 0x00,
  0x01, 0xA1, 0x70, 0x03, 0xA2, 0x7A, 0x7A, 0xC3, 0xA1, 0x53, 0xA1, 0x41]

/-- The MessagePack parser on this frame. -/
def tradeParser : MsgpackParser ℚ where
  events data := if data = tradeFrame then (Sax.Tree.array [.map tradeMessage.pack]).events else []
  finish data := if data = tradeFrame then .success else .failure

/-- The JSON library on the text of the same message. -/
def tradeJson : JsonLibrary ℚ where
  parse text :=
    if text = StockDataStream.plainText tradeMessage.json then .ok tradeMessage.json
    else .error (bytes "syntax error")
  dump j := .ok (StockDataStream.plainText j)

/-- The known fields of the trade have the documented types. -/
theorem tradeMessage_wellTyped : MessageKind.trade.WellTyped tradeMessage where
  type_eq := rfl
  holds := by
    simp only [MessageKind.fields, List.forall_mem_cons]
    refine ⟨?_, ?_, ?_, ?_, ?_, ?_, by simp⟩
    · exact fun v hv ↦ Or.inr ⟨_, (Option.some_inj.1 hv).symm⟩
    · exact fun v hv ↦ Or.inr ⟨1000000000, .timestamp32, ⟨by decide, by decide⟩, (Option.some_inj.1 hv).symm⟩
    · exact fun v hv ↦ Or.inr (Or.inl ⟨3, by decide, by decide, (Option.some_inj.1 hv).symm⟩)
    all_goals exact fun v hv ↦ absurd hv.symm (Option.some_ne_none v)

/-- Both paths hand over the same trade. -/
theorem common_handleFrame_tradeFrame :
    (handleFrame tradeJson tradeJson.dump tradeParser (fun _ ↦ StockDataStream.allSet) tradeFrame
        (Decoder.after tradeParser [])).1.common =
        (jsonFrame tradeJson tradeJson.dump (fun _ ↦ StockDataStream.allSet)
          (StockDataStream.plainText tradeMessage.json)).common ∧
      (handleFrame tradeJson tradeJson.dump tradeParser (fun _ ↦ StockDataStream.allSet) tradeFrame
        (Decoder.after tradeParser [])).1.outputs =
        [.message (bytes "A") (.trade { timestamp := 1000000000, price := 3, size := 0 })] := by
  refine ⟨common_handleFrame_eq (fun _ _ k _ _ ↦ ⟨StockDataStream.plainText k, rfl⟩) _ _
    tradeMessage_wellTyped [] ⟨by decide, ⟨_, rfl, rfl⟩, rfl⟩ ⟨_, rfl, rfl⟩, ?_⟩
  decide +kernel

end OptionDataStream

end Alpaca
