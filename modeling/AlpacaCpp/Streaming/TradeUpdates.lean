import AlpacaCpp.Core.Structs
import AlpacaCpp.Streaming.HandleFrame
import AlpacaCpp.Trading.OrderModel

/-!
# The account stream

`trade_update`, its `from_json`, and `trade_update_stream::handle_payload`. The account stream shares the
socket, the framing and the authentication frame with the market data streams and nothing else: its
messages are objects with a `stream` and `data`, a rejected authentication is one of them, and the one
channel is asked for with a `listen` request.

The order in an update is read by the `from_json` the REST calls use. So it refuses what they refuse, and
with it the rest of its frame: `session_spec` says for whole sessions **what every message of every frame
leads to**, up to the first one that cannot be read.

An update can be read when its order can, and when its timestamp is null, a string or missing; where that
gives nothing, a second key is tried, and has to satisfy the same (`Readable`, `fromJson_spec`). `Refuses`
is then an update that somebody listens to and that cannot be read, the only message that throws, and
`Responds` says for the others what comes of them: a `listen` behind an authorization, an error for a
rejected one, a call of the handler for an update, and nothing for the rest. As in the other streams,
handlers do not throw, and what they send themselves is not part of a session.

The stream is asked for once and for good, so unlike the data streams it keeps no set, and its replay
after a reconnect is the same `listen` request again.
-/

namespace Alpaca

/-! ### Updates

The order is one line of `from_json`, and the only one that can refuse an update for what lies below it.
`ReadFrom` gives the update field by field; for the order it refers to what a REST call would have
returned for the same JSON, so that nothing about orders is said twice. -/

inductive TradeUpdateEvent where
  | unknown | newOrder | fill | partialFill | canceled | expired | doneForDay | replaced | rejected
  | pendingNew | stopped | pendingCancel | pendingReplace | calculated | suspended
  | orderReplaceRejected | orderCancelRejected
  deriving DecidableEq

/-- `to_trade_update_event` -/
def toTradeUpdateEvent : Bytes → TradeUpdateEvent :=
  enumFromString .unknown [(.newOrder, bytes "new"), (.fill, bytes "fill"),
    (.partialFill, bytes "partial_fill"), (.canceled, bytes "canceled"), (.expired, bytes "expired"),
    (.doneForDay, bytes "done_for_day"), (.replaced, bytes "replaced"), (.rejected, bytes "rejected"),
    (.pendingNew, bytes "pending_new"), (.stopped, bytes "stopped"),
    (.pendingCancel, bytes "pending_cancel"), (.pendingReplace, bytes "pending_replace"),
    (.calculated, bytes "calculated"), (.suspended, bytes "suspended"),
    (.orderReplaceRejected, bytes "order_replace_rejected"),
    (.orderCancelRejected, bytes "order_cancel_rejected")]

/-- `trade_update` -/
structure TradeUpdate (D : Type) where
  event : TradeUpdateEvent := .unknown
  order : Order D
  executionId : Bytes := []
  price : Option D := none
  qty : Option D := none
  positionQty : Option D := none
  timestamp : ℕ := 0

namespace TradeUpdate

variable {D : Type}

/-- A default-constructed `trade_update`. -/
def empty [DoubleCasts D] : TradeUpdate D where
  order := .empty

variable [Doubles D] (lib : JsonLibrary D)

/-- The lines of `from_json` up to the timestamp. -/
def lines : List (Reader D (TradeUpdate D)) := [
  readEnum lib (bytes "event") toTradeUpdateEvent fun u x ↦ { u with event := x },
  readStruct (bytes "order") (Order.fromJson lib) order fun u x ↦ { u with order := x },
  readVariable lib (bytes "execution_id") Json.getString fun u x ↦ { u with executionId := x },
  readOptionalDouble lib (bytes "price") fun u x ↦ { u with price := x },
  readOptionalDouble lib (bytes "qty") fun u x ↦ { u with qty := x },
  readOptionalDouble lib (bytes "position_qty") fun u x ↦ { u with positionQty := x },
  readTimestamp (bytes "timestamp") fun u x ↦ { u with timestamp := x }]

omit [Doubles D] in
/-- Older payloads spell it `at`. -/
def readAt : Reader D (TradeUpdate D) := fun j u ↦
  if u.timestamp = 0 then readTimestamp (bytes "at") (fun u x ↦ { u with timestamp := x }) j u else .ok u

/-- `from_json` of a `trade_update`. -/
def fromJson : Reader D (TradeUpdate D) := fromLines (lines lib ++ [readAt])

omit [Doubles D] in
/-- An update that can be read: its order can, and the timestamp it has is null or a string. -/
structure Readable (j : Json D) : Prop where
  order : j.Under (bytes "order") fun v ↦ v.isNull = true ∨ ¬Order.Misdated v
  timestamp : j.Dated (bytes "timestamp")
  at' : (j.timestampAt (bytes "timestamp")).getD 0 = 0 → j.Dated (bytes "at")

variable {lib} {j : Json D}

/-- The order of an update, as a REST call would return it. -/
def orderOf (lib : JsonLibrary D) (j : Json D) : Except Bytes (Order D) :=
  Json.toModel (Order.fromJson lib) .empty ((j.member? (bytes "order")).getD .null)

/-- An update, field by field. -/
structure ReadFrom (lib : JsonLibrary D) (j : Json D) (u : TradeUpdate D) : Prop where
  event : u.event =
    ((j.variableAt (bytes "event") Json.getString).map toTradeUpdateEvent).getD .unknown
  order : orderOf lib j = .ok u.order
  executionId : u.executionId = (j.variableAt (bytes "execution_id") Json.getString).getD []
  price : u.price = optionalDoubleAt lib j (bytes "price")
  qty : u.qty = optionalDoubleAt lib j (bytes "qty")
  positionQty : u.positionQty = optionalDoubleAt lib j (bytes "position_qty")
  timestamp : u.timestamp = if (j.timestampAt (bytes "timestamp")).getD 0 = 0 then
    (j.timestampAt (bytes "at")).getD 0 else (j.timestampAt (bytes "timestamp")).getD 0

/-- Outside an object there is nothing to read. -/
theorem order_idle {v : Json D} (h : v.isObject = false) : Reader.Idle (Order.fromJson lib) v := by
  have hnone : ∀ key, v.member? key = none := by
    cases v <;> first | exact fun _ ↦ rfl | exact absurd h (by simp [Json.isObject])
  have hfrom : Order.fromJson lib v = fromLines (Order.lines lib) v := by
    cases v <;> first | rfl | exact absurd h (by simp [Json.isObject])
  intro o
  rw [hfrom]
  refine idle_fromLines ?_ o
  simp [Order.lines, Order.linesBefore, Order.linesBehind, Order.timestampFields,
    idle_readVariable (hnone _), idle_readEnum (hnone _), idle_readTimestamp (hnone _),
    idle_readDouble (hnone _), idle_readOptionalDouble (hnone _), idle_readBool (hnone _)]

omit [Doubles D] in
/-- The line of the older spelling. -/
theorem readAt_eq {u : TradeUpdate D} (h : u.timestamp = 0 → j.Dated (bytes "at")) :
    readAt j u = .ok { u with
      timestamp := if u.timestamp = 0 then (j.timestampAt (bytes "at")).getD 0 else u.timestamp } := by
  rw [readAt]
  split
  case isTrue hzero => rw [readTimestamp_eq (h hzero) timestamp (fun _ ↦ rfl), hzero]
  case isFalse => rfl

omit [Doubles D] in
/-- The second timestamp is looked at when there is no first one, and may throw. -/
theorem exists_readAt_eq_error {u : TradeUpdate D} (hzero : u.timestamp = 0) (h : ¬j.Dated (bytes "at")) :
    ∃ what, readAt j u = .error what := by
  rw [readAt, if_pos hzero]
  rcases hread : readTimestamp (bytes "at") (fun u x ↦ { u with timestamp := x }) j u with what | u'
  · exact ⟨what, hread⟩
  · exact absurd ((returnsIff_readTimestamp _ _ j u).1 ⟨u', hread⟩) h

section Reading

variable (hj : Order.AllPrint lib [j])

include hj

omit [Doubles D] in
theorem prints_of_allPrint : lib.Prints j := hj j List.mem_cons_self j (.self j)

omit [Doubles D] in
/-- The order in an update prints. -/
theorem allPrint_order {v : Json D} (hv : j.member? (bytes "order") = some v) :
    Order.AllPrint lib [v] := by
  intro k hk p hp
  obtain rfl := List.mem_singleton.1 hk
  exact hj j List.mem_cons_self p (Json.part_of_member? hv hp)

/-- The line of the order. -/
theorem returnsIff_order (field : TradeUpdate D → Order D) (assign : TradeUpdate D → Order D → TradeUpdate D) :
    (readStruct (bytes "order") (Order.fromJson lib) field assign).ReturnsIff j
      (j.Under (bytes "order") fun v ↦ v.isNull = true ∨ ¬Order.Misdated v) :=
  returnsIff_readStruct (fun v hv ↦ Order.fromJson_iff v (allPrint_order hj hv)) _ _

/-- The other lines: the order, and the first timestamp. -/
theorem returnsIff_lines : (fromLines (lines lib)).ReturnsIff j
    ((j.Under (bytes "order") fun v ↦ v.isNull = true ∨ ¬Order.Misdated v) ∧
      j.Dated (bytes "timestamp")) := by
  have hprints := prints_of_allPrint hj
  exact returnsIff_total_cons (total_readEnum hprints _ _ _)
    (returnsIff_cons (returnsIff_order hj _ _)
      (returnsIff_total_cons (total_readVariable hprints _ _ _)
        (returnsIff_total_cons (total_readOptionalDouble hprints _ _)
          (returnsIff_total_cons (total_readOptionalDouble hprints _ _)
            (returnsIff_total_cons (total_readOptionalDouble hprints _ _)
              (returnsIff_singleton (returnsIff_readTimestamp _ _ j)))))))

/-- What the order's line is given. -/
theorem exists_orderOf (h : j.Under (bytes "order") fun v ↦ v.isNull = true ∨ ¬Order.Misdated v) :
    ∃ x, orderOf lib j = .ok x ∧ (j.member? (bytes "order")).elim (.ok .empty)
      (fun v ↦ if v.isNull then .ok .empty else Order.fromJson lib v .empty) = .ok x := by
  unfold orderOf
  rcases hv : j.member? (bytes "order") with - | v
  · exact ⟨.empty, rfl, rfl⟩
  · rw [Option.getD_some, Option.elim_some]
    rcases hobject : v.isObject with - | -
    · have hmodel : Json.toModel (Order.fromJson lib) .empty v = .ok .empty := by
        cases v <;> first | rfl | exact absurd hobject (by simp [Json.isObject])
      refine ⟨.empty, hmodel, ?_⟩
      split
      · rfl
      · exact order_idle hobject .empty
    · obtain ⟨members, rfl⟩ : ∃ members, v = .obj members := by
        cases v with
        | obj members => exact ⟨members, rfl⟩
        | _ => exact absurd hobject (by simp [Json.isObject])
      obtain ⟨x, hx⟩ := (Order.fromJson_iff _ (allPrint_order hj hv) .empty).2
        ((h _ hv).resolve_left (by simp [Json.isNull]))
      exact ⟨x, hx, hx⟩

/-- The lines, field by field. -/
theorem lines_eq {x : Order D} (hx : (j.member? (bytes "order")).elim (.ok .empty)
      (fun v ↦ if v.isNull then .ok .empty else Order.fromJson lib v .empty) = .ok x)
    (ht : j.Dated (bytes "timestamp")) : fromLines (lines lib) j .empty = .ok {
      event := ((j.variableAt (bytes "event") Json.getString).map toTradeUpdateEvent).getD .unknown
      order := x
      executionId := (j.variableAt (bytes "execution_id") Json.getString).getD []
      price := optionalDoubleAt lib j (bytes "price")
      qty := optionalDoubleAt lib j (bytes "qty")
      positionQty := optionalDoubleAt lib j (bytes "position_qty")
      timestamp := (j.timestampAt (bytes "timestamp")).getD 0 } := by
  have hprints := prints_of_allPrint hj
  rw [lines, readEnum, fromLines_cons (readVariable_eq hprints event (fun _ ↦ rfl) empty),
    fromLines_cons (readStruct_eq order { empty with event := _ } rfl hx),
    fromLines_cons (readVariable_eq hprints executionId (fun _ ↦ rfl) _),
    fromLines_cons (readOptionalDouble_eq hprints price _ rfl rfl),
    fromLines_cons (readOptionalDouble_eq hprints qty _ rfl rfl),
    fromLines_cons (readOptionalDouble_eq hprints positionQty _ rfl rfl),
    fromLines_cons (readTimestamp_eq ht timestamp (fun _ ↦ rfl) _), Json.variableAt_map]
  rfl

/-- **An update is read** exactly when its order can be and the timestamp it has is null or a string, and
then every field of it is the one documented. -/
theorem fromJson_spec : (Readable j → ∃ u, fromJson lib j .empty = .ok u ∧ ReadFrom lib j u) ∧
    (¬Readable j → ∃ what, fromJson lib j .empty = .error what) := by
  have happend : fromJson lib j .empty = fromLines (lines lib) j .empty >>= fromLines [readAt] j :=
    List.foldlM_append
  have hiff := returnsIff_lines hj .empty
  by_cases hlines : (j.Under (bytes "order") fun v ↦ v.isNull = true ∨ ¬Order.Misdated v) ∧
      j.Dated (bytes "timestamp")
  · obtain ⟨x, horder, hx⟩ := exists_orderOf hj hlines.1
    rw [happend, lines_eq hj hx hlines.2]
    -- the order and the first timestamp can be read, so only the second one is left
    refine ⟨fun h ↦ ⟨_, (fromLines_singleton _ j _).trans (readAt_eq h.at'),
      ⟨rfl, horder, rfl, rfl, rfl, rfl, rfl⟩⟩, fun h ↦ ?_⟩
    obtain ⟨hzero, hat⟩ : (j.timestampAt (bytes "timestamp")).getD 0 = 0 ∧ ¬j.Dated (bytes "at") := by
      by_contra hnot
      exact h ⟨hlines.1, hlines.2, fun hzero ↦ not_not.1 fun hat ↦ hnot ⟨hzero, hat⟩⟩
    refine (exists_readAt_eq_error ?_ hat).imp fun what hwhat ↦ (fromLines_singleton _ j _).trans hwhat
    exact hzero
  · refine ⟨fun h ↦ absurd ⟨h.order, h.timestamp⟩ hlines, fun _ ↦ ?_⟩
    rcases hread : fromLines (lines lib) j .empty with what | u
    · exact ⟨what, by rw [happend, hread]; rfl⟩
    · exact absurd (hiff.1 ⟨u, hread⟩) hlines

end Reading

end TradeUpdate

/-! ### Messages

`handle_payload` looks at `stream` first. An `authorization` goes on with the status in its data, a
`trade_updates` is read as an update if somebody listens to it, and every other name is skipped. The frame
is handled by the same loop over an array as in the data streams. -/

/-- The handlers of an account stream. They are set before `connect`. -/
structure AccountSetting where
  onError : Bool
  onConnected : Bool
  onTradeUpdate : Bool

/-- Those of them the base class has. -/
def AccountSetting.toStreamSetting (s : AccountSetting) : StreamSetting where
  isSet _ := false
  onError := s.onError
  onSubscription := false
  onConnected := s.onConnected
  channels := []

namespace TradeUpdateStream

variable {D : Type}

/-- What `on_ready` sends. -/
def listenFrame : Bytes :=
  bytes "\x7b\"action\":\"listen\",\"data\":\x7b\"streams\":[\"trade_updates\"]\x7d\x7d"

/-- `mark_ready`, with `on_ready` in it. -/
def markReady (s : AccountSetting) : Handling (TradeUpdate D) :=
  ⟨.ready :: .send listenFrame :: if s.onConnected then [.connected] else [], none⟩

/-- The `data` of a message, when it is an object. -/
def dataOf (payload : Json D) : Option (Json D) :=
  match payload.member? (bytes "data") with
  | some (.obj members) => some (.obj members)
  | _ => none

/-- The `status` in the `data` of a message, or nothing. -/
def statusOf (payload : Json D) : Bytes :=
  match (dataOf payload).bind fun d ↦ d.member? (bytes "status") with
  | some (.str status) => status
  | _ => []

variable [Doubles D] (lib : JsonLibrary D)

/-- `handle_payload` -/
def handle (s : AccountSetting) (payload : Json D) : Handling (TradeUpdate D) :=
  match payload.member? (bytes "stream") with
  | some (.str channel) =>
    if channel = bytes "authorization" then
      if statusOf payload = bytes "authorized" then markReady s
      else
        reportError s.toStreamSetting
          ⟨401, if statusOf payload = [] then bytes "authorization refused" else statusOf payload⟩
    else if channel = bytes "listening" then ⟨[], none⟩
    else if channel = bytes "trade_updates" then
      match dataOf payload with
      | some d =>
        if s.onTradeUpdate then
          match TradeUpdate.fromJson lib d .empty with
          | .ok u => ⟨[.message [] u], none⟩
          | .error what => ⟨[], some what⟩
        else ⟨[], none⟩
      | none => ⟨[], none⟩
    else ⟨[], none⟩
  | _ => ⟨[], none⟩

/-- `handle_frame` -/
def handleFrame (s : AccountSetting) (data : Bytes) : Handling (TradeUpdate D) :=
  Alpaca.handleFrame lib (fun _ ↦ handle lib s) s.toStreamSetting data

/-! ### One message

The cases of `handle_payload`, as conditions on the message. They exclude one another and leave nothing
out, which is why a message that is not refused has exactly one response. -/

omit [Doubles D] in
/-- The channel of a message. -/
def channelOf (payload : Json D) : Option Bytes :=
  match payload.member? (bytes "stream") with
  | some (.str channel) => some channel
  | _ => none

omit [Doubles D] in
/-- An update there is a handler for, that cannot be read. -/
def Refuses (s : AccountSetting) (payload : Json D) : Prop :=
  channelOf payload = some (bytes "trade_updates") ∧ s.onTradeUpdate = true ∧
    ∃ d, dataOf payload = some d ∧ ¬TradeUpdate.Readable d

/-- What a message leads to. -/
structure Responds (s : AccountSetting) (payload : Json D)
    (outputs : List (StreamOutput (TradeUpdate D))) : Prop where
  authorized : channelOf payload = some (bytes "authorization") →
    statusOf payload = bytes "authorized" →
    outputs = .ready :: .send listenFrame :: if s.onConnected then [.connected] else []
  rejected : channelOf payload = some (bytes "authorization") →
    statusOf payload ≠ bytes "authorized" → outputs = if s.onError then [.error ⟨401,
      if statusOf payload = [] then bytes "authorization refused" else statusOf payload⟩] else []
  update : channelOf payload = some (bytes "trade_updates") → s.onTradeUpdate = true →
    ∀ d, dataOf payload = some d → ∃ u, outputs = [.message [] u] ∧ TradeUpdate.ReadFrom lib d u
  silent : channelOf payload ≠ some (bytes "authorization") →
    channelOf payload ≠ some (bytes "trade_updates") ∨ s.onTradeUpdate = false ∨ dataOf payload = none →
    outputs = []

variable {lib} {s : AccountSetting} {payload : Json D}

omit [Doubles D] in
/-- The data of a message is the value under `data`. -/
theorem dataOf_eq_some {d : Json D} (h : dataOf payload = some d) : payload.member? (bytes "data") = some d := by
  rw [dataOf] at h
  split at h
  · rename_i members hmember
    exact hmember.trans h
  · exact absurd h (by simp)

omit [Doubles D] in
/-- The channel of a message is the string under `stream`. -/
theorem channelOf_eq_some {channel : Bytes} (h : channelOf payload = some channel) :
    payload.member? (bytes "stream") = some (.str channel) := by
  rw [channelOf] at h
  split at h
  · rename_i channel' hmember
    rw [hmember, Option.some.inj h]
  · exact absurd h (by simp)

/-- A message without a channel. -/
theorem handle_of_channelOf_none (h : channelOf payload = none) : handle lib s payload = ⟨[], none⟩ := by
  rw [channelOf] at h
  rw [handle]
  split
  · rename_i channel hmember
    rw [hmember] at h
    exact absurd h (by simp)
  · rfl

/-- The branch of `trade_updates`. -/
theorem handle_update (hj : Order.AllPrint lib [payload])
    (hchannel : channelOf payload = some (bytes "trade_updates")) {h : Handling (TradeUpdate D)}
    (hh : h = match dataOf payload with
      | some d =>
        if s.onTradeUpdate then
          match TradeUpdate.fromJson lib d .empty with
          | .ok u => ⟨[.message [] u], none⟩
          | .error what => ⟨[], some what⟩
        else ⟨[], none⟩
      | none => ⟨[], none⟩) :
    (¬Refuses s payload → h.thrown = none ∧ Responds lib s payload h.outputs) ∧
    (Refuses s payload → h.outputs = [] ∧ h.thrown ≠ none) := by
  have hauth : channelOf payload ≠ some (bytes "authorization") := by
    rw [hchannel]
    decide
  have hquiet : s.onTradeUpdate = false ∨ dataOf payload = none → ¬Refuses s payload ∧
      Responds lib s payload [] := by
    intro hno
    refine ⟨fun ⟨_, hset, d, hd, _⟩ ↦ ?_, fun h ↦ absurd h hauth, fun h ↦ absurd h hauth,
      fun _ hset d hd ↦ ?_, fun _ _ ↦ rfl⟩
    · rcases hno with hunset | hnone
      · exact absurd (hunset.symm.trans hset) (by decide)
      · exact absurd (hnone.symm.trans hd) (by simp)
    · rcases hno with hunset | hnone
      · exact absurd (hunset.symm.trans hset) (by decide)
      · exact absurd (hnone.symm.trans hd) (by simp)
  rcases hdata : dataOf payload with - | d
  · rw [hdata] at hh
    obtain ⟨hnot, hresponds⟩ := hquiet (.inr hdata)
    exact ⟨fun _ ↦ by rw [hh]; exact ⟨rfl, hresponds⟩, fun h ↦ absurd h hnot⟩
  · rw [hdata] at hh
    dsimp only at hh
    rcases hset : s.onTradeUpdate with - | -
    · rw [hset] at hh
      obtain ⟨hnot, hresponds⟩ := hquiet (.inl hset)
      exact ⟨fun _ ↦ by rw [hh]; exact ⟨rfl, hresponds⟩, fun h ↦ absurd h hnot⟩
    · rw [hset, if_pos rfl] at hh
      have hprint : Order.AllPrint lib [d] := by
        intro k hk p hp
        obtain rfl := List.mem_singleton.1 hk
        exact hj payload List.mem_cons_self p (Json.part_of_member? (dataOf_eq_some hdata) hp)
      obtain ⟨hreads, hthrows⟩ := TradeUpdate.fromJson_spec hprint
      -- somebody listens: the update is read, or throws
      refine ⟨fun hnot ↦ ?_, fun ⟨_, _, d', hd', hbad⟩ ↦ ?_⟩
      · have hreadable : TradeUpdate.Readable d := by
          by_contra hbad
          exact hnot ⟨hchannel, hset, d, hdata, hbad⟩
        obtain ⟨u, hu, hfields⟩ := hreads hreadable
        rw [hu] at hh
        subst hh
        refine ⟨rfl, fun h ↦ absurd h hauth, fun h ↦ absurd h hauth, fun _ _ d' hd' ↦ ?_, fun _ hno ↦ ?_⟩
        · obtain rfl := Option.some.inj (hdata.symm.trans hd')
          exact ⟨u, rfl, hfields⟩
        · rcases hno with hne | hunset | hnone
          · exact absurd hchannel hne
          · exact absurd (hset.symm.trans hunset) (by decide)
          · exact absurd (hdata.symm.trans hnone) (by simp)
      · obtain rfl := Option.some.inj (hdata.symm.trans hd')
        obtain ⟨what, hwhat⟩ := hthrows hbad
        rw [hwhat] at hh
        subst hh
        exact ⟨rfl, by simp⟩

/-- **One message**: what it leads to, or that it throws before anything is done. -/
theorem handle_spec (hj : Order.AllPrint lib [payload]) :
    (¬Refuses s payload → (handle lib s payload).thrown = none ∧
      Responds lib s payload (handle lib s payload).outputs) ∧
    (Refuses s payload → (handle lib s payload).outputs = [] ∧ (handle lib s payload).thrown ≠ none) := by
  rcases hchannel : channelOf payload with - | channel
  · rw [handle_of_channelOf_none hchannel]
    refine ⟨fun _ ↦ ⟨rfl, ?_⟩, fun h ↦ absurd (hchannel.symm.trans h.1) (by simp)⟩
    constructor
    case silent => exact fun _ _ ↦ rfl
    all_goals exact fun h ↦ absurd (hchannel.symm.trans h) (by simp)
  · have hother : ∀ {name : String}, channel ≠ bytes name → channelOf payload ≠ some (bytes name) :=
      fun hne h ↦ hne (Option.some.inj (hchannel.symm.trans h))
    rw [handle, channelOf_eq_some hchannel]
    dsimp only
    by_cases hauth : channel = bytes "authorization"
    · subst hauth
      have htrade : channelOf payload ≠ some (bytes "trade_updates") := by
        rw [hchannel]
        decide
      rw [if_pos rfl]
      refine ⟨fun _ ↦ ?_, fun h ↦ absurd h.1 htrade⟩
      split
      case isTrue hstatus =>
        exact ⟨rfl, fun _ _ ↦ rfl, fun _ h ↦ absurd hstatus h, fun h ↦ absurd h htrade,
          fun h ↦ absurd hchannel h⟩
      case isFalse hstatus =>
        exact ⟨rfl, fun _ h ↦ absurd h hstatus, fun _ _ ↦ rfl, fun h ↦ absurd h htrade,
          fun h ↦ absurd hchannel h⟩
    · rw [if_neg hauth]
      by_cases htrade : channel = bytes "trade_updates"
      · subst htrade
        rw [if_neg (by decide), if_pos rfl]
        exact handle_update hj hchannel rfl
      · rw [if_neg htrade, ite_self]
        exact ⟨fun _ ↦ ⟨rfl, fun h ↦ absurd h (hother hauth), fun h ↦ absurd h (hother hauth),
          fun h ↦ absurd h (hother htrade), fun _ _ ↦ rfl⟩, fun h ↦ absurd h.1 (hother htrade)⟩

/-! ### Frames and sessions

A session is a list of frames, handled with the handlers that were set before it. The only payload the
service thread sends is the `listen` request, and it follows an authorization. -/

/-- **A frame handled as it should be**, as far as it can be read: malformed text is reported, and of the
messages every one in front of the first that is refused leads to what it leads to by itself, in order.
An exception leaves the frame exactly when there is one that is refused. -/
structure Handles (lib : JsonLibrary D) (s : AccountSetting) (data : Bytes)
    (h : Handling (TradeUpdate D)) : Prop where
  malformed : ∀ what, lib.parse data = .error what → h =
    ⟨if s.onError then [.error ⟨0, bytes "malformed stream frame: " ++ what⟩] else [], none⟩
  handled : ∀ j, lib.parse data = .ok j → ∃ front rest parts,
    StockDataStream.framePayloads j = front ++ rest ∧ h.outputs = List.flatten parts ∧
      List.Forall₂ (fun message part ↦ ¬Refuses s message ∧ Responds lib s message part) front parts ∧
      (h.thrown = none ↔ rest = []) ∧ ∀ message ∈ rest.head?, Refuses s message

/-- The loop over the messages. -/
theorem handleAll_spec (s : AccountSetting) {messages : List (Json D)}
    (hmessages : ∀ message ∈ messages, Order.AllPrint lib [message]) :
    ∃ front rest parts, messages = front ++ rest ∧
      (handleAll (fun _ ↦ handle lib s) messages).outputs = List.flatten parts ∧
      List.Forall₂ (fun message part ↦ ¬Refuses s message ∧ Responds lib s message part) front parts ∧
      ((handleAll (fun _ ↦ handle lib s) messages).thrown = none ↔ rest = []) ∧
      ∀ message ∈ rest.head?, Refuses s message := by
  induction messages with
  | nil => exact ⟨[], [], [], rfl, rfl, .nil, iff_of_true rfl rfl, by simp⟩
  | cons message messages ih =>
    rw [List.forall_mem_cons] at hmessages
    obtain ⟨hresponds, hrefuses⟩ := handle_spec (s := s) hmessages.1
    -- the rest of the array begins with the message that is refused
    by_cases hrefused : Refuses s message
    · obtain ⟨houtputs, hthrown⟩ := hrefuses hrefused
      rw [handleAll_of_thrown hthrown]
      refine ⟨[], message :: messages, [], rfl, houtputs, .nil, iff_of_false hthrown (by simp), ?_⟩
      intro m hm
      obtain rfl := Option.some.inj hm
      exact hrefused
    · obtain ⟨hnone, hpart⟩ := hresponds hrefused
      obtain ⟨front, rest, parts, rfl, houtputs, hparts, hthrown, hhead⟩ := ih hmessages.2
      rw [handleAll_of_returns hnone]
      refine ⟨message :: front, rest, _ :: parts, rfl, ?_, .cons ⟨hrefused, hpart⟩ hparts, hthrown, hhead⟩
      rw [List.flatten_cons, ← houtputs]

/-- **Every frame.** -/
theorem handles_handleFrame (hlib : lib.ParsedPrints) (s : AccountSetting) (data : Bytes) :
    Handles lib s data (handleFrame lib s data) where
  malformed what hparse := by
    rw [handleFrame, Alpaca.handleFrame, hparse]
    rfl
  handled j hparse := by
    rw [handleFrame, StockDataStream.handleFrame_of_parse _ _ hparse]
    refine handleAll_spec s fun message hmem k hk p hp ↦ ?_
    obtain rfl := List.mem_singleton.1 hk
    refine hlib data j p hparse ?_
    cases j with
    | arr messages => exact .elem hmem hp
    | _ => exact List.mem_singleton.1 hmem ▸ hp

/-- What the stream does in a session, frame by frame. -/
def session (lib : JsonLibrary D) (s : AccountSetting) (frames : List Bytes) :
    List (StreamOutput (TradeUpdate D)) :=
  (frames.map fun data ↦ (handleFrame lib s data).outputs).flatten

omit [Doubles D] in
/-- The one request of the stream goes out right behind every authentication, and nothing else is sent.
The flag says that it is about to go out. -/
def Listens : Bool → List (StreamOutput (TradeUpdate D)) → Prop
  | expected, [] => expected = false
  | expected, .ready :: rest => expected = false ∧ Listens true rest
  | expected, .send payload :: rest => expected = true ∧ payload = listenFrame ∧ Listens false rest
  | expected, _ :: rest => expected = false ∧ Listens false rest

omit [Doubles D] in
/-- What two parts send, one after the other. -/
theorem Listens.append {outputs outputs' : List (StreamOutput (TradeUpdate D))} {expected : Bool}
    (h : Listens expected outputs) (h' : Listens false outputs') : Listens expected (outputs ++ outputs') := by
  induction outputs generalizing expected with
  | nil => exact (show expected = false from h) ▸ h'
  | cons output outputs ih =>
    cases output with
    | ready => exact ⟨h.1, ih h.2⟩
    | send payload => exact ⟨h.1, h.2.1, ih h.2.2⟩
    | message | error | subscription | connected => exact ⟨h.1, ih h.2⟩

omit [Doubles D] in
/-- What many parts send, one after the other. -/
theorem listens_flatten {parts : List (List (StreamOutput (TradeUpdate D)))}
    (h : ∀ part ∈ parts, Listens false part) : Listens false parts.flatten := by
  induction parts with
  | nil => rfl
  | cons part parts ih =>
    rw [List.forall_mem_cons] at h
    exact h.1.append (ih h.2)

omit [Doubles D] in
/-- An error sends nothing. -/
theorem listens_error (c : Prop) [Decidable c] (e : StreamError) :
    Listens false (if c then [StreamOutput.error e] else [] : List (StreamOutput (TradeUpdate D))) := by
  split
  · exact ⟨rfl, rfl⟩
  · rfl

/-- One message listens. -/
theorem Responds.listens {part : List (StreamOutput (TradeUpdate D))} (h : Responds lib s payload part) :
    Listens false part := by
  by_cases hauth : channelOf payload = some (bytes "authorization")
  · by_cases hstatus : statusOf payload = bytes "authorized"
    · rw [h.authorized hauth hstatus]
      refine ⟨rfl, rfl, rfl, ?_⟩
      split
      · exact ⟨rfl, rfl⟩
      · rfl
    · rw [h.rejected hauth hstatus]
      exact listens_error _ _
  · by_cases hsilent : channelOf payload ≠ some (bytes "trade_updates") ∨ s.onTradeUpdate = false ∨
        dataOf payload = none
    · rw [h.silent hauth hsilent]
      rfl
    · push Not at hsilent
      obtain ⟨htrade, hset, hdata⟩ := hsilent
      obtain ⟨d, hd⟩ := Option.ne_none_iff_exists'.1 hdata
      obtain ⟨u, rfl, -⟩ := h.update htrade (Bool.eq_true_of_not_eq_false hset) d hd
      exact ⟨rfl, rfl⟩

/-- **Whole sessions.** Whatever frames come in, each is handled as it should be as far as it can be read:
every update in front of a refused one reaches its handler once and in order, with the order a REST call
would return, the fields of its execution, and `at` for a timestamp only where `timestamp` gives none;
every authorization, rejection and malformed text leads to what is documented for it. And in what the
stream does throughout the session, the `listen` request goes out right behind every authentication, and
nothing else is ever sent. -/
theorem session_spec (hlib : lib.ParsedPrints) (s : AccountSetting) (frames : List Bytes) :
    (∀ data ∈ frames, Handles lib s data (handleFrame lib s data)) ∧
      Listens false (session lib s frames) := by
  refine ⟨fun data _ ↦ handles_handleFrame hlib s data, listens_flatten fun part hpart ↦ ?_⟩
  obtain ⟨data, -, rfl⟩ := List.mem_map.1 hpart
  have h := handles_handleFrame hlib s data
  rcases hparse : lib.parse data with what | j
  · rw [h.malformed what hparse]
    exact listens_error _ _
  · obtain ⟨front, rest, parts, -, houtputs, hparts, -⟩ := h.handled j hparse
    rw [houtputs]
    refine listens_flatten fun part hpart ↦ ?_
    obtain ⟨message, -, hmessage⟩ := exists_mem_left hparts hpart
    exact hmessage.2.listens

/-- The acknowledgement of the credentials. -/
def authorizedMessage : Json ℚ := .obj [
  (bytes "data", .obj [(bytes "action", .str (bytes "authenticate")), (bytes "status", .str (bytes "authorized"))]),
  (bytes "stream", .str (bytes "authorization"))]

/-- A fill, of the older spelling. -/
def fillMessage : Json ℚ := .obj [
  (bytes "data", .obj [(bytes "at", .str (bytes "1970-01-01T00:00:01Z")), (bytes "event", .str (bytes "fill")),
    (bytes "order", .obj [(bytes "symbol", .str (bytes "A"))])]),
  (bytes "stream", .str (bytes "trade_updates"))]

/-- The JSON library on these two frames. -/
def accountJson : JsonLibrary ℚ where
  parse text :=
    if text = StockDataStream.plainText authorizedMessage then .ok authorizedMessage
    else if text = StockDataStream.plainText fillMessage then .ok fillMessage
    else .error (bytes "syntax error")
  dump j := .ok (StockDataStream.plainText j)

/-- A session in which the two come in, and then text that is no JSON. -/
theorem session_spec_fill :
    let frames := [StockDataStream.plainText authorizedMessage, StockDataStream.plainText fillMessage, bytes "x"]
    (session accountJson ⟨true, true, true⟩ frames).length = 5 ∧
      (∀ data ∈ frames, Handles accountJson ⟨true, true, true⟩ data
        (handleFrame accountJson ⟨true, true, true⟩ data)) ∧
      Listens false (session accountJson ⟨true, true, true⟩ frames) :=
  ⟨by decide +kernel, session_spec (fun _ _ k _ _ ↦ ⟨StockDataStream.plainText k, rfl⟩) _ _⟩

end TradeUpdateStream

end Alpaca
