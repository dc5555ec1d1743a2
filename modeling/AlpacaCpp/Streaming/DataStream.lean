import AlpacaCpp.Foundation.Bytes
import AlpacaCpp.Foundation.Replica
import AlpacaCpp.Streaming.StreamBase
import Mathlib.Data.List.AList
import Mathlib.Tactic.MkIffOfInductiveProp

/-!
# `data_stream_base`: the subscription set and the frames that announce it

A `data_stream_base` (`core/src/streaming/data_stream_base.cpp`) keeps the channels and symbols the
user wants in `channels_`, behind a mutex of its own. `subscribe` and `unsubscribe` change the set in
one locked section, read `state_` once the mutex is given back, and send a frame with the change if
they saw `ready`. `on_ready` reads the set in one locked section and sends it as one frame. The two
sides run on different threads, so a frame can be sent long after the section it was built in.

The machine runs the labels of `StreamBase` next to those of one user thread at a time (calls of
`subscribe` and `unsubscribe` do not overlap) and those of the socket. A new connection starts an
empty link and an empty set at the server. A frame sent while the connection is down stays on the
link and is never delivered.

`encode` can throw, and all three build their frame inside the locked section. So the machine has one
parameter, `writable`: the strings `encode` takes. `json::dump` throws on a string that is not UTF-8,
`json::to_msgpack` takes any. In `subscribe` and `unsubscribe` the exception reaches the user behind the
change of the set, and there is no frame to announce it. In `on_ready` it leaves `mark_ready`, and there
is no replay; `onReadyReturn` is the service thread leaving `mark_ready` either way.
-/

namespace Alpaca

/-- The name of a channel: any name but the key under which a frame holds its action. -/
def Channel : Type := {name : Bytes // name ≠ bytes "action"}
  deriving DecidableEq

/-- The `action` of a frame. -/
inductive ControlAction
  | subscribe
  | unsubscribe
  deriving DecidableEq

/-- A control frame, `{"action": <action>, "<channel>": [...]}`. -/
structure ControlFrame where
  action : ControlAction
  channels : List (Channel × Finset Bytes)
  deriving DecidableEq

namespace ControlFrame

/-- The channels and symbols a frame names. -/
def items (f : ControlFrame) : Finset (Channel × Bytes) := keyedPairs f.channels

/-- `encode` takes every string of the frame. -/
def Encodes (writable : Bytes → Bool) (f : ControlFrame) : Prop :=
  ∀ p ∈ f.items, writable p.1.1 = true ∧ writable p.2 = true

instance (writable : Bytes → Bool) (f : ControlFrame) : Decidable (f.Encodes writable) :=
  inferInstanceAs (Decidable (∀ p ∈ f.items, writable p.1.1 = true ∧ writable p.2 = true))

/-- What the server does with a frame. -/
def op (f : ControlFrame) : SetOp (Channel × Bytes) :=
  match f.action with
  | .subscribe => .add f.items
  | .unsubscribe => .remove f.items

end ControlFrame

/-- Where the user thread stands in `subscribe` or `unsubscribe`. -/
inductive UserPc
  | idle
  /-- The set is changed, `is_ready` is not called yet. -/
  | check (f : ControlFrame)
  /-- `is_ready` returned true. -/
  | send (f : ControlFrame)
  deriving DecidableEq

/-- Where the service thread stands in `on_ready`. -/
inductive Replay
  /-- Not in `on_ready`, or done with it. -/
  | none
  /-- Before its locked section. -/
  | begin
  /-- The set is read and its frame is not sent yet. -/
  | unsent (f : ControlFrame)
  deriving DecidableEq

/-- A `data_stream_base`, the threads in it and the connection to the server. -/
structure DataStream where
  base : StreamBase
  /-- `channels_` -/
  channels : AList fun _ : Channel ↦ Finset Bytes
  user : UserPc
  replay : Replay
  /-- The frames of the last connection, without the authentication. -/
  link : OrderedLink ControlFrame
  /-- The connection is up. -/
  linkUp : Bool

namespace DataStream

/-- A new stream with so many user threads that call `connect` and `disconnect`. -/
def start (callers : ℕ) (policy : ReconnectPolicy) : DataStream where
  base := .start callers policy
  channels := ∅
  user := .idle
  replay := .none
  link := .opened
  linkUp := false

/-- The symbols of a channel, `channels_[channel]`. -/
def symbolsOf (d : DataStream) (channel : Channel) : Finset Bytes :=
  (d.channels.lookup channel).getD ∅

/-- `build_frame`: the whole set, without the channels that are empty. -/
def buildFrame (d : DataStream) (action : ControlAction) : ControlFrame where
  action := action
  channels := (d.channels.entries.map fun e ↦ (e.1, e.2)).filter fun e ↦ e.2 ≠ ∅

section Step

variable (writable : Bytes → Bool)

/-- `payload = encode(frame);` in a call of the user: an exception ends the call. -/
def announce (f : ControlFrame) : UserPc := if f.Encodes writable then .check f else .idle

/-- The locked section of `subscribe`. -/
def subscribe (d : DataStream) (channel : Channel) (symbols : List Bytes) : DataStream :=
  if symbols = [] then d
  else
    { d with
      channels := d.channels.insert channel (d.symbolsOf channel ∪ symbols.toFinset)
      user := announce writable ⟨.subscribe, [(channel, symbols.toFinset)]⟩ }

/-- The locked section of `unsubscribe`. -/
def unsubscribe (d : DataStream) (channel : Channel) (symbols : List Bytes) : DataStream :=
  if symbols = [] then d
  else
    { d with
      channels :=
        if channel ∈ d.channels then
          d.channels.insert channel (d.symbolsOf channel \ symbols.toFinset)
        else d.channels
      user := announce writable ⟨.unsubscribe, [(channel, symbols.toFinset)]⟩ }

/-- `if (is_ready()) send(payload);` up to the call of `send`. -/
def checkReady (d : DataStream) (f : ControlFrame) : DataStream :=
  { d with user := if d.base.state = .ready then .send f else .idle }

/-- The locked section of `on_ready`: without a symbol to replay it returns, and without a frame to
send it throws. -/
def onReady (d : DataStream) : DataStream :=
  { d with
    replay :=
      if (∃ e ∈ d.channels.entries, e.2 ≠ ∅) ∧ (d.buildFrame .subscribe).Encodes writable then
        .unsent (d.buildFrame .subscribe)
      else .none }

/-- The atomic steps. -/
inductive Action
  | base (a : StreamBase.Action)
  | subscribe (channel : Channel) (symbols : List Bytes)
  | unsubscribe (channel : Channel) (symbols : List Bytes)
  | checkReady
  | userSend
  | onReady
  | sendReplay
  | linkDown
  | deliver
  deriving DecidableEq

/-- What a label of `StreamBase` means for the subscriptions: the connection is opened and lost with
its callbacks, and `mark_ready` runs `on_ready` behind its locked section. -/
def follow (d : DataStream) (a : StreamBase.Action) (base : StreamBase) : Option DataStream :=
  match a with
  | .socketConnected => some { d with base := base, link := .opened, linkUp := true }
  | .socketDisconnected => some { d with base := base, linkUp := false }
  | .resetAttempt => some { d with base := base, replay := .begin }
  | .onReadyReturn => whenever (d.replay = .none) { d with base := base }
  | _ => some { d with base := base }

/-- One step of one thread. -/
def step (d : DataStream) : Action → Option DataStream
  | .base a => (d.base.step a).bind (d.follow a)
  | .subscribe channel symbols => whenever (d.user = .idle) (d.subscribe writable channel symbols)
  | .unsubscribe channel symbols => whenever (d.user = .idle) (d.unsubscribe writable channel symbols)
  | .checkReady =>
    match d.user with
    | .check f => some (d.checkReady f)
    | _ => none
  | .userSend =>
    match d.user with
    | .send f => some { d with user := .idle, link := d.link.send f }
    | _ => none
  | .onReady => whenever (d.base.service = .onReady ∧ d.replay = .begin) (d.onReady writable)
  | .sendReplay =>
    match d.replay with
    | .unsent f => some { d with replay := .none, link := d.link.send f }
    | _ => none
  | .linkDown => some { d with linkUp := false }
  | .deliver => if d.linkUp then d.link.deliver?.map fun link ↦ { d with link := link } else none

/-- The stream as a machine. -/
def machine : Machine DataStream Action where
  step := step writable

end Step

/-! ### What the two ends hold -/

/-- The channels and symbols of `pending_channels()`. -/
def pending (d : DataStream) : Finset (Channel × Bytes) :=
  keyedPairs (d.channels.entries.map fun e ↦ (e.1, e.2))

/-- What the frames amount to. -/
def itemsOf (frames : List ControlFrame) : Finset (Channel × Bytes) :=
  SetOp.contents (frames.map ControlFrame.op)

/-- What the server holds for the session. -/
def server (d : DataStream) : Finset (Channel × Bytes) := itemsOf d.link.received

variable {d : DataStream} {channel c : Channel} {symbols : List Bytes} {x : Bytes}

/-- What is wanted, channel by channel. -/
theorem mem_pending : (c, x) ∈ d.pending ↔ x ∈ d.symbolsOf c := by
  have hentries : ∀ s : Finset Bytes, (c, s) ∈ d.channels.entries.map (fun e ↦ (e.1, e.2)) ↔
      d.channels.lookup c = some s := by
    intro s
    rw [← Option.mem_def, AList.mem_lookup_iff, List.mem_map]
    constructor
    · rintro ⟨⟨c', s'⟩, hmem, heq⟩
      obtain ⟨rfl, rfl⟩ := Prod.mk.inj heq
      exact hmem
    · exact fun hmem ↦ ⟨⟨c, s⟩, hmem, rfl⟩
  rw [pending, mem_keyedPairs, symbolsOf]
  simp only [hentries]
  cases d.channels.lookup c <;> simp

/-- A frame of one channel names the pairs of this channel. -/
theorem mem_items_singleton {action : ControlAction} {set : Finset Bytes} :
    (c, x) ∈ ControlFrame.items ⟨action, [(channel, set)]⟩ ↔ c = channel ∧ x ∈ set := by
  rw [ControlFrame.items, mem_keyedPairs]
  simp only [List.mem_singleton, Prod.mk.injEq]
  constructor
  · rintro ⟨s, ⟨rfl, rfl⟩, hx⟩
    exact ⟨rfl, hx⟩
  · rintro ⟨rfl, hx⟩
    exact ⟨set, ⟨rfl, rfl⟩, hx⟩

/-- `subscribe` adds what its frame names. -/
theorem pending_subscribe (writable : Bytes → Bool) (d : DataStream) (channel : Channel) (h : symbols ≠ []) :
    (d.subscribe writable channel symbols).pending =
      d.pending ∪ ControlFrame.items ⟨.subscribe, [(channel, symbols.toFinset)]⟩ := by
  ext ⟨c, x⟩
  rw [Finset.mem_union, mem_pending, mem_pending, mem_items_singleton, subscribe, if_neg h]
  by_cases hc : c = channel
  · subst hc
    simp [symbolsOf]
  · simp [symbolsOf, AList.lookup_insert_ne hc, hc]

/-- `unsubscribe` removes what its frame names. -/
theorem pending_unsubscribe (writable : Bytes → Bool) (d : DataStream) (channel : Channel) (h : symbols ≠ []) :
    (d.unsubscribe writable channel symbols).pending =
      d.pending \ ControlFrame.items ⟨.unsubscribe, [(channel, symbols.toFinset)]⟩ := by
  ext ⟨c, x⟩
  rw [Finset.mem_sdiff, mem_pending, mem_pending, mem_items_singleton, unsubscribe, if_neg h]
  by_cases hmem : channel ∈ d.channels
  case neg =>
    -- A channel nobody has subscribed to holds nothing to remove.
    have hnone : d.channels.lookup channel = none := AList.lookup_eq_none.2 hmem
    simp only [symbolsOf, if_neg hmem]
    constructor
    · refine fun hx ↦ ⟨hx, ?_⟩
      rintro ⟨rfl, -⟩
      simp [hnone] at hx
    · exact And.left
  case pos =>
    by_cases hc : c = channel
    · subst hc
      simp [symbolsOf, hmem]
    · simp [symbolsOf, hmem, AList.lookup_insert_ne hc, hc]

/-- The frame of a replay names the whole set. -/
theorem items_buildFrame (action : ControlAction) : (d.buildFrame action).items = d.pending := by
  ext ⟨c, x⟩
  rw [ControlFrame.items, buildFrame, pending, mem_keyedPairs, mem_keyedPairs]
  constructor
  · rintro ⟨s, hmem, hx⟩
    exact ⟨s, (List.mem_filter.1 hmem).1, hx⟩
  · rintro ⟨s, hmem, hx⟩
    exact ⟨s, List.mem_filter.2 ⟨hmem, decide_eq_true (Finset.ne_empty_of_mem hx)⟩, hx⟩

/-- Without a symbol in any channel nothing is wanted. -/
theorem pending_eq_empty (h : ¬ ∃ e ∈ d.channels.entries, e.2 ≠ ∅) : d.pending = ∅ := by
  rw [Finset.eq_empty_iff_forall_notMem]
  rintro ⟨c, x⟩ hmem
  obtain ⟨s, hs, hx⟩ := mem_keyedPairs.1 hmem
  obtain ⟨e, he, heq⟩ := List.mem_map.1 hs
  obtain ⟨rfl, rfl⟩ := Prod.mk.inj heq
  exact h ⟨e, he, Finset.ne_empty_of_mem hx⟩

/-- The stream is ready, `on_ready` has finished, no call is in progress and every frame sent has been
processed. -/
@[mk_iff] structure Quiescent (d : DataStream) : Prop where
  ready : d.base.state = .ready
  marked : d.base.service ≠ .resetAttempt
  replayed : d.replay = .none
  idle : d.user = .idle
  drained : d.link.Drained

instance (d : DataStream) : Decidable (Quiescent d) := decidable_of_iff' _ (quiescent_iff d)

end DataStream

end Alpaca
