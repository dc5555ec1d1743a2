import AlpacaCpp.Foundation.OrderedSet
import AlpacaCpp.Streaming.ControlFrames
import AlpacaCpp.Streaming.Subscriptions

/-!
# The subscriptions on the wire

`data_stream_base` once more, one level down: `channels_` holds its symbols in order, a change and a replay
are JSON objects that `encode` turns into text, and what travels is that text.

`WireStream` runs the labels of `DataStream`, and `Carries` relates the two: what a thread holds or the
link carries on one side is text that a server reads as the frame on the other. **Every run of the wire is
a run of the sets** (`Carries.step`), exceptions of `encode` included, so what is proved there about all
interleavings holds of the text (`wire_subscriptions`). The relation says nothing about the order of the
symbols or about the channels that are empty: no frame shows either.

The simulation goes label by label, with one lemma for each. What it needs of the text is in
`FrameCodec.Faithful`: a frame that `encode` returns is read as it was meant, and `encode` throws on the same
frames for which `DataStream` has none. So a set that has changed behind the back of the server, because its
frame could not be encoded, has done so on both sides.

The conditions of the result are the ones of `Streaming/Subscriptions`, on the labels of the run and on
the run of the sets with the same labels. They are not stated again for text, since the labels are the
same.
-/

namespace Alpaca

/-! ### The stream

The labels and the threads are those of `DataStream`, so that a run can be replayed there without a
translation. What differs is what is carried: ordered sets in place of sets, text in place of frames, and
a call of `encode` where the set-level model asks whether a frame is encodable. -/

/-- Where the user thread stands in `subscribe` or `unsubscribe`, with its text. -/
inductive PayloadPc
  | idle
  | check (payload : Bytes)
  | send (payload : Bytes)
  deriving DecidableEq

/-- Where the service thread stands in `on_ready`, with its text. -/
inductive PayloadReplay
  | none
  | begin
  | unsent (payload : Bytes)
  deriving DecidableEq

/-- A `data_stream_base`, the threads in it and the connection, which carries text. -/
structure WireStream where
  base : StreamBase
  /-- `channels_` -/
  channels : AList fun _ : Channel ↦ OrderedSet Bytes
  user : PayloadPc
  replay : PayloadReplay
  link : OrderedLink Bytes
  linkUp : Bool

namespace WireStream

/-- A new stream. -/
def start (callers : ℕ) (policy : ReconnectPolicy) : WireStream where
  base := .start callers policy
  channels := ∅
  user := .idle
  replay := .none
  link := .opened
  linkUp := false

/-- `channels_[channel]` -/
def symbolsOf (w : WireStream) (channel : Channel) : OrderedSet Bytes := (w.channels.lookup channel).getD ∅

section Step

variable {D : Type} (encode : Json D → Except Bytes Bytes)

/-- The frame of `build_frame`. -/
def buildFrame (w : WireStream) (action : ControlAction) : Json D :=
  channelsFrame action (w.channels.pairs.map fun e ↦ (e.1, e.2.elems))

/-- `payload = encode(frame);` in a call of the user. -/
def announce (frame : Json D) : PayloadPc :=
  match encode frame with
  | .ok payload => .check payload
  | .error _ => .idle

/-- The locked section of `subscribe`. -/
def subscribe (w : WireStream) (channel : Channel) (symbols : List Bytes) : WireStream :=
  if symbols = [] then w
  else
    { w with
      channels := w.channels.insert channel ((w.symbolsOf channel).insertAll symbols)
      user := announce encode (changeFrame .subscribe channel symbols) }

/-- The locked section of `unsubscribe`. -/
def unsubscribe (w : WireStream) (channel : Channel) (symbols : List Bytes) : WireStream :=
  if symbols = [] then w
  else
    { w with
      channels :=
        if channel ∈ w.channels then
          w.channels.insert channel ((w.symbolsOf channel).eraseAll symbols)
        else w.channels
      user := announce encode (changeFrame .unsubscribe channel symbols) }

/-- `if (is_ready()) send(payload);` up to the call of `send`. -/
def checkReady (w : WireStream) (payload : Bytes) : WireStream :=
  { w with user := if w.base.state = .ready then .send payload else .idle }

/-- `payload = build_frame("subscribe");` in `on_ready`: an exception leaves nothing to send. -/
def replayOf (frame : Json D) : PayloadReplay :=
  match encode frame with
  | .ok payload => .unsent payload
  | .error _ => .none

/-- The locked section of `on_ready`. -/
def onReady (w : WireStream) : WireStream :=
  { w with
    replay :=
      if ∃ e ∈ w.channels.pairs, e.2.elems ≠ [] then replayOf encode (w.buildFrame .subscribe) else .none }

/-- What a label of `StreamBase` means for the subscriptions. -/
def follow (w : WireStream) (a : StreamBase.Action) (base : StreamBase) : Option WireStream :=
  match a with
  | .socketConnected => some { w with base := base, link := .opened, linkUp := true }
  | .socketDisconnected => some { w with base := base, linkUp := false }
  | .resetAttempt => some { w with base := base, replay := .begin }
  | .onReadyReturn => whenever (w.replay = .none) { w with base := base }
  | _ => some { w with base := base }

/-- One step of one thread. -/
def step (w : WireStream) : DataStream.Action → Option WireStream
  | .base a => (w.base.step a).bind (w.follow a)
  | .subscribe channel symbols => whenever (w.user = .idle) (w.subscribe encode channel symbols)
  | .unsubscribe channel symbols => whenever (w.user = .idle) (w.unsubscribe encode channel symbols)
  | .checkReady =>
    match w.user with
    | .check payload => some (w.checkReady payload)
    | _ => none
  | .userSend =>
    match w.user with
    | .send payload => some { w with user := .idle, link := w.link.send payload }
    | _ => none
  | .onReady => whenever (w.base.service = .onReady ∧ w.replay = .begin) (w.onReady encode)
  | .sendReplay =>
    match w.replay with
    | .unsent payload => some { w with replay := .none, link := w.link.send payload }
    | _ => none
  | .linkDown => some { w with linkUp := false }
  | .deliver => if w.linkUp then w.link.deliver?.map fun link ↦ { w with link := link } else none

/-- The stream as a machine. -/
def machine : Machine WireStream DataStream.Action where
  step := step encode

end Step

/-- The channels and symbols of `pending_channels()`. -/
def pending (w : WireStream) : Finset (Channel × Bytes) :=
  keyedPairs (w.channels.pairs.map fun e ↦ (e.1, e.2.elems.toFinset))

/-- What the server has read in the session. -/
def server {D : Type} (codec : FrameCodec D) (w : WireStream) : Finset (Channel × Bytes) :=
  SetOp.contents (w.link.received.filterMap codec.op?)

/-- The stream is ready, `on_ready` has finished, no call is in progress and every text sent has been
processed. -/
@[mk_iff] structure Quiescent (w : WireStream) : Prop where
  ready : w.base.state = .ready
  marked : w.base.service ≠ .resetAttempt
  replayed : w.replay = .none
  idle : w.user = .idle
  drained : w.link.Drained

instance (w : WireStream) : Decidable (Quiescent w) := decidable_of_iff' _ (quiescent_iff w)

/-! ### What the user wants

The symbols a user wants are what the changes made so far amount to, whether or not their frames could be
sent. For ordered sets this is proved per change, and it is the same set as on the other side. -/

variable {w w' : WireStream} {channel c : Channel} {symbols : List Bytes} {x : Bytes}

/-- What is wanted, channel by channel. -/
theorem mem_pending : (c, x) ∈ w.pending ↔ x ∈ w.symbolsOf c := by
  have hkeys : ((w.channels.pairs.map fun e ↦ (e.1, e.2.elems.toFinset)).map Prod.fst).Nodup := by
    rw [List.map_map]
    exact w.channels.nodup_pairs
  have hlookup : (w.channels.pairs.map fun e ↦ (e.1, e.2.elems.toFinset)).lookup c =
      (w.channels.pairs.lookup c).map fun s ↦ s.elems.toFinset :=
    List.lookup_map_of_injective Function.injective_id (fun s : OrderedSet Bytes ↦ s.elems.toFinset) _ c
  rw [pending, mem_keyedPairs_iff_lookup hkeys, hlookup, AList.lookup_pairs, symbolsOf]
  rcases w.channels.lookup c with - | s
  · exact iff_of_false (Finset.notMem_empty x) (OrderedSet.notMem_empty x)
  · exact List.mem_toFinset

/-- `subscribe` adds what its frame names. -/
theorem pending_subscribe {D : Type} (encode : Json D → Except Bytes Bytes) (w : WireStream) (channel : Channel)
    (h : symbols ≠ []) :
    (w.subscribe encode channel symbols).pending =
      w.pending ∪ ControlFrame.items ⟨.subscribe, [(channel, symbols.toFinset)]⟩ := by
  ext ⟨c, x⟩
  rw [Finset.mem_union, mem_pending, mem_pending, DataStream.mem_items_singleton, subscribe, if_neg h]
  by_cases hc : c = channel
  · subst hc
    simp [symbolsOf, OrderedSet.mem_insertAll]
  · simp [symbolsOf, AList.lookup_insert_ne hc, hc]

/-- `unsubscribe` removes what its frame names. -/
theorem pending_unsubscribe {D : Type} (encode : Json D → Except Bytes Bytes) (w : WireStream) (channel : Channel)
    (h : symbols ≠ []) :
    (w.unsubscribe encode channel symbols).pending =
      w.pending \ ControlFrame.items ⟨.unsubscribe, [(channel, symbols.toFinset)]⟩ := by
  ext ⟨c, x⟩
  rw [Finset.mem_sdiff, mem_pending, mem_pending, DataStream.mem_items_singleton, unsubscribe, if_neg h]
  by_cases hc : c = channel
  case neg =>
    split <;> simp [symbolsOf, AList.lookup_insert_ne hc, hc]
  case pos =>
    subst hc
    split
    case isTrue => simp [symbolsOf, OrderedSet.mem_eraseAll]
    case isFalse hmem =>
      have hnone : x ∉ w.symbolsOf c := by
        rw [symbolsOf, AList.lookup_eq_none.2 hmem]
        exact OrderedSet.notMem_empty x
      exact iff_of_false hnone fun h ↦ hnone h.1

/-- `on_ready` finds a symbol to replay exactly if one is wanted. -/
theorem exists_ne_nil_iff : (∃ e ∈ w.channels.pairs, e.2.elems ≠ []) ↔ w.pending ≠ ∅ := by
  rw [← Finset.nonempty_iff_ne_empty]
  constructor
  · rintro ⟨⟨c, s⟩, hmem, hs⟩
    obtain ⟨x, hx⟩ := List.exists_mem_of_ne_nil _ hs
    exact ⟨(c, x), mem_keyedPairs.2 ⟨_, List.mem_map_of_mem hmem, List.mem_toFinset.2 hx⟩⟩
  · rintro ⟨⟨c, x⟩, hx⟩
    obtain ⟨s, hs, hx⟩ := mem_keyedPairs.1 hx
    obtain ⟨e, he, heq⟩ := List.mem_map.1 hs
    obtain ⟨rfl, rfl⟩ := Prod.mk.inj heq
    exact ⟨e, he, List.ne_nil_of_mem (List.mem_toFinset.1 hx)⟩

end WireStream

/-- `on_ready` of the sets does. -/
theorem DataStream.exists_ne_empty_iff {d : DataStream} :
    (∃ e ∈ d.channels.entries, e.2 ≠ ∅) ↔ d.pending ≠ ∅ := by
  refine ⟨?_, not_imp_comm.1 pending_eq_empty⟩
  rintro ⟨⟨c, s⟩, hmem, hs⟩ hpending
  obtain ⟨x, hx⟩ := Finset.nonempty_iff_ne_empty.2 hs
  have hx : (c, x) ∈ d.pending := mem_keyedPairs.2 ⟨s, List.mem_map.2 ⟨⟨c, s⟩, hmem, rfl⟩, hx⟩
  exact Finset.notMem_empty _ (hpending ▸ hx)

/-! ### The text carries the frames

One relation for a thread, one for a replay, and one for the link. Each constructor pairs a state with the
state that has the frame in place of its text, so that inversion gives the shape of the other side at
once. -/

/-- The user thread holds a text for a frame. -/
inductive PayloadPc.Holds (R : Bytes → ControlFrame → Prop) : PayloadPc → UserPc → Prop
  | idle : Holds R .idle .idle
  | check {payload : Bytes} {f : ControlFrame} (h : R payload f) : Holds R (.check payload) (.check f)
  | send {payload : Bytes} {f : ControlFrame} (h : R payload f) : Holds R (.send payload) (.send f)

/-- So does the service thread. -/
inductive PayloadReplay.Holds (R : Bytes → ControlFrame → Prop) : PayloadReplay → Replay → Prop
  | none : Holds R .none .none
  | begin : Holds R .begin .begin
  | unsent {payload : Bytes} {f : ControlFrame} (h : R payload f) : Holds R (.unsent payload) (.unsent f)

theorem PayloadPc.Holds.idle_iff {R : Bytes → ControlFrame → Prop} {u : PayloadPc} {v : UserPc}
    (h : Holds R u v) : u = .idle ↔ v = .idle := by
  rcases h with - | - | - <;> simp

theorem PayloadReplay.Holds.none_iff {R : Bytes → ControlFrame → Prop} {u : PayloadReplay} {v : Replay}
    (h : Holds R u v) : u = .none ↔ v = .none := by
  rcases h with - | - | - <;> simp

theorem PayloadReplay.Holds.begin_iff {R : Bytes → ControlFrame → Prop} {u : PayloadReplay} {v : Replay}
    (h : Holds R u v) : u = .begin ↔ v = .begin := by
  rcases h with - | - | - <;> simp

theorem PayloadPc.Holds.exists_check {R : Bytes → ControlFrame → Prop} {payload : Bytes} {v : UserPc}
    (h : Holds R (.check payload) v) : ∃ f, v = .check f ∧ R payload f := by
  obtain - | hread := h
  exact ⟨_, rfl, hread⟩

theorem PayloadPc.Holds.exists_send {R : Bytes → ControlFrame → Prop} {payload : Bytes} {v : UserPc}
    (h : Holds R (.send payload) v) : ∃ f, v = .send f ∧ R payload f := by
  obtain - | - | hread := h
  exact ⟨_, rfl, hread⟩

theorem PayloadReplay.Holds.exists_unsent {R : Bytes → ControlFrame → Prop} {payload : Bytes} {v : Replay}
    (h : Holds R (.unsent payload) v) : ∃ f, v = .unsent f ∧ R payload f := by
  obtain - | - | hread := h
  exact ⟨_, rfl, hread⟩

/-- A stream whose texts a server reads as the frames of another, everything else alike. -/
structure Carries {D : Type} (codec : FrameCodec D) (w : WireStream) (d : DataStream) : Prop where
  base : w.base = d.base
  pending : w.pending = d.pending
  user : w.user.Holds codec.Reads d.user
  replay : w.replay.Holds codec.Reads d.replay
  link : w.link.Mirrors codec.Reads d.link
  linkUp : w.linkUp = d.linkUp

namespace Carries

variable {D : Type} {codec : FrameCodec D} {writable : Bytes → Bool} {w w' : WireStream} {d : DataStream}
  {channel : Channel} {symbols : List Bytes}

theorem start (codec : FrameCodec D) (callers : ℕ) (policy : ReconnectPolicy) :
    Carries codec (.start callers policy) (.start callers policy) :=
  ⟨rfl, rfl, .idle, .none, OrderedLink.mirrors_opened, rfl⟩

/-- **The server has read the same** on both sides. -/
theorem server_eq (h : Carries codec w d) : w.server codec = d.server :=
  FrameCodec.contents_eq h.link.received

/-- Nothing is on its way on the one exactly when nothing is on the other. -/
theorem quiescent_iff (h : Carries codec w d) : w.Quiescent ↔ d.Quiescent := by
  constructor
  · rintro ⟨hready, hmarked, hreplayed, hidle, hdrained⟩
    exact ⟨h.base ▸ hready, h.base ▸ hmarked, h.replay.none_iff.1 hreplayed, h.user.idle_iff.1 hidle,
      h.link.drained_iff.1 hdrained⟩
  · rintro ⟨hready, hmarked, hreplayed, hidle, hdrained⟩
    exact ⟨h.base ▸ hready, h.base ▸ hmarked, h.replay.none_iff.2 hreplayed, h.user.idle_iff.2 hidle,
      h.link.drained_iff.2 hdrained⟩

/-- The text of a change is read as its frame, and there is none exactly when the frame cannot be encoded. -/
theorem holds_announce (hcodec : codec.Faithful writable) (action : ControlAction) (channel : Channel)
    (hsymbols : symbols ≠ []) :
    (WireStream.announce codec.encode (changeFrame action channel symbols)).Holds codec.Reads
      (DataStream.announce writable ⟨action, [(channel, symbols.toFinset)]⟩) := by
  have hkeys : ([(channel, symbols)].map Prod.fst).Nodup := List.nodup_singleton channel
  have hencodes : (∃ payload, codec.encode (channelsFrame action [(channel, symbols)]) = .ok payload) ↔
      ControlFrame.Encodes writable ⟨action, [(channel, symbols.toFinset)]⟩ := hcodec.encode_iff action _ hkeys
  rw [WireStream.announce, DataStream.announce, changeFrame_eq action channel hsymbols]
  rcases hencode : codec.encode (channelsFrame action [(channel, symbols)]) with what | payload
  · rw [if_neg fun hwritable ↦ ?_]
    · exact .idle
    · obtain ⟨payload, hp⟩ := hencodes.2 hwritable
      exact absurd (hencode.symm.trans hp) (by simp)
  · rw [if_pos (hencodes.1 ⟨payload, hencode⟩)]
    refine .check ?_
    rw [FrameCodec.Reads, hcodec.op? hkeys hencode]
    cases action <;> rfl

/-- A subscription changes both sets, and has a frame on both sides or on neither. -/
theorem subscribe (h : Carries codec w d) (hcodec : codec.Faithful writable)
    (hstep : w.step codec.encode (.subscribe channel symbols) = some w') :
    ∃ d', d.step writable (.subscribe channel symbols) = some d' ∧ Carries codec w' d' := by
  obtain ⟨hidle, rfl⟩ := whenever_eq_some.1 hstep
  refine ⟨d.subscribe writable channel symbols, whenever_eq_some.2 ⟨h.user.idle_iff.1 hidle, rfl⟩, ?_⟩
  by_cases hsymbols : symbols = []
  · rwa [WireStream.subscribe, if_pos hsymbols, DataStream.subscribe, if_pos hsymbols]
  · have hpending := WireStream.pending_subscribe codec.encode w channel hsymbols
    rw [h.pending, ← DataStream.pending_subscribe writable d channel hsymbols] at hpending
    rw [WireStream.subscribe, if_neg hsymbols, DataStream.subscribe, if_neg hsymbols] at hpending ⊢
    exact ⟨h.base, hpending, holds_announce hcodec .subscribe channel hsymbols, h.replay, h.link, h.linkUp⟩

/-- The end of a subscription changes both sets, and has a frame on both sides or on neither. -/
theorem unsubscribe (h : Carries codec w d) (hcodec : codec.Faithful writable)
    (hstep : w.step codec.encode (.unsubscribe channel symbols) = some w') :
    ∃ d', d.step writable (.unsubscribe channel symbols) = some d' ∧ Carries codec w' d' := by
  obtain ⟨hidle, rfl⟩ := whenever_eq_some.1 hstep
  refine ⟨d.unsubscribe writable channel symbols, whenever_eq_some.2 ⟨h.user.idle_iff.1 hidle, rfl⟩, ?_⟩
  by_cases hsymbols : symbols = []
  · rwa [WireStream.unsubscribe, if_pos hsymbols, DataStream.unsubscribe, if_pos hsymbols]
  · have hpending := WireStream.pending_unsubscribe codec.encode w channel hsymbols
    rw [h.pending, ← DataStream.pending_unsubscribe writable d channel hsymbols] at hpending
    rw [WireStream.unsubscribe, if_neg hsymbols, DataStream.unsubscribe, if_neg hsymbols] at hpending ⊢
    exact ⟨h.base, hpending, holds_announce hcodec .unsubscribe channel hsymbols, h.replay, h.link, h.linkUp⟩

/-- A replay is read as the whole set, and both sides are without one in the same cases. -/
theorem onReady (h : Carries codec w d) (hcodec : codec.Faithful writable)
    (hstep : w.step codec.encode .onReady = some w') :
    ∃ d', d.step writable .onReady = some d' ∧ Carries codec w' d' := by
  obtain ⟨⟨hservice, hbegin⟩, rfl⟩ := whenever_eq_some.1 hstep
  refine ⟨d.onReady writable, whenever_eq_some.2 ⟨⟨h.base ▸ hservice, h.replay.begin_iff.1 hbegin⟩, rfl⟩,
    h.base, h.pending, h.user, ?_, h.link, h.linkUp⟩
  have hkeys : ((w.channels.pairs.map fun e ↦ (e.1, e.2.elems)).map Prod.fst).Nodup := by
    rw [List.map_map]
    exact w.channels.nodup_pairs
  have hnames : keyedPairs ((w.channels.pairs.map fun e ↦ (e.1, e.2.elems)).map fun c ↦ (c.1, c.2.toFinset)) =
      (d.buildFrame .subscribe).items := by
    rw [DataStream.items_buildFrame, ← h.pending, List.map_map]
    rfl
  -- `encode` throws on the text exactly when the set has a string that is not writable
  have hencodes : (∃ payload, codec.encode (w.buildFrame .subscribe) = .ok payload) ↔
      (d.buildFrame .subscribe).Encodes writable := by
    rw [ControlFrame.Encodes, ← hnames]
    exact hcodec.encode_iff .subscribe _ hkeys
  rw [WireStream.onReady, DataStream.onReady]
  show PayloadReplay.Holds _ (ite _ _ _) (ite _ _ _)
  by_cases hsome : w.pending = ∅
  · have hnone : d.pending = ∅ := h.pending ▸ hsome
    rw [if_neg (WireStream.exists_ne_nil_iff.not.2 (not_not.2 hsome)),
      if_neg fun hboth ↦ DataStream.exists_ne_empty_iff.1 hboth.1 hnone]
    exact .none
  · have hany := DataStream.exists_ne_empty_iff.2 (h.pending ▸ hsome)
    rw [if_pos (WireStream.exists_ne_nil_iff.2 hsome), WireStream.replayOf]
    rcases hencode : codec.encode (w.buildFrame .subscribe) with what | payload
    · rw [if_neg fun hboth ↦ ?_]
      · exact .none
      · obtain ⟨payload, hp⟩ := hencodes.2 hboth.2
        exact absurd (hencode.symm.trans hp) (by simp)
    · rw [if_pos ⟨hany, hencodes.1 ⟨payload, hencode⟩⟩]
      refine .unsent ?_
      rw [FrameCodec.Reads, hcodec.op? hkeys hencode, hnames]
      rfl

/-- A label of `StreamBase` happens on both sides. -/
theorem base_step (h : Carries codec w d) {a : StreamBase.Action} (hstep : w.step codec.encode (.base a) = some w') :
    ∃ d', d.step writable (.base a) = some d' ∧ Carries codec w' d' := by
  obtain ⟨b, hb, hfollow⟩ := Option.bind_eq_some_iff.1 hstep
  rw [h.base] at hb
  rw [DataStream.step, hb, Option.bind_some]
  cases a
  case socketConnected =>
    obtain rfl := Option.some.inj hfollow
    exact ⟨_, rfl, rfl, h.pending, h.user, h.replay, OrderedLink.mirrors_opened, rfl⟩
  case socketDisconnected =>
    obtain rfl := Option.some.inj hfollow
    exact ⟨_, rfl, rfl, h.pending, h.user, h.replay, h.link, rfl⟩
  case resetAttempt =>
    obtain rfl := Option.some.inj hfollow
    exact ⟨_, rfl, rfl, h.pending, h.user, .begin, h.link, h.linkUp⟩
  case onReadyReturn =>
    obtain ⟨hnone, rfl⟩ := whenever_eq_some.1 hfollow
    exact ⟨_, whenever_eq_some.2 ⟨h.replay.none_iff.1 hnone, rfl⟩, rfl, h.pending, h.user, h.replay, h.link,
      h.linkUp⟩
  all_goals
    obtain rfl := Option.some.inj hfollow
    exact ⟨_, rfl, rfl, h.pending, h.user, h.replay, h.link, h.linkUp⟩

/-- Both sides see the same `state_`. -/
theorem checkReady (h : Carries codec w d) (hstep : w.step codec.encode .checkReady = some w') :
    ∃ d', d.step writable .checkReady = some d' ∧ Carries codec w' d' := by
  rw [WireStream.step] at hstep
  split at hstep
  case h_1 payload hpayload =>
    obtain ⟨f, hf, hread⟩ := (hpayload ▸ h.user).exists_check
    obtain rfl := Option.some.inj hstep
    refine ⟨d.checkReady f, by rw [DataStream.step, hf], h.base, h.pending, ?_, h.replay, h.link, h.linkUp⟩
    rw [WireStream.checkReady, DataStream.checkReady, h.base]
    split
    · exact .send hread
    · exact .idle
  case h_2 => cases hstep

/-- The change goes onto both links. -/
theorem userSend (h : Carries codec w d) (hstep : w.step codec.encode .userSend = some w') :
    ∃ d', d.step writable .userSend = some d' ∧ Carries codec w' d' := by
  rw [WireStream.step] at hstep
  split at hstep
  case h_1 payload hpayload =>
    obtain ⟨f, hf, hread⟩ := (hpayload ▸ h.user).exists_send
    obtain rfl := Option.some.inj hstep
    exact ⟨{ d with user := .idle, link := d.link.send f }, by rw [DataStream.step, hf], h.base, h.pending, .idle,
      h.replay, h.link.send hread, h.linkUp⟩
  case h_2 => cases hstep

/-- The replay goes onto both links. -/
theorem sendReplay (h : Carries codec w d) (hstep : w.step codec.encode .sendReplay = some w') :
    ∃ d', d.step writable .sendReplay = some d' ∧ Carries codec w' d' := by
  rw [WireStream.step] at hstep
  split at hstep
  case h_1 payload hpayload =>
    obtain ⟨f, hf, hread⟩ := (hpayload ▸ h.replay).exists_unsent
    obtain rfl := Option.some.inj hstep
    exact ⟨{ d with replay := .none, link := d.link.send f }, by rw [DataStream.step, hf], h.base, h.pending, h.user,
      .none, h.link.send hread, h.linkUp⟩
  case h_2 => cases hstep

/-- The server reads the same from both. -/
theorem deliver (h : Carries codec w d) (hstep : w.step codec.encode .deliver = some w') :
    ∃ d', d.step writable .deliver = some d' ∧ Carries codec w' d' := by
  rw [WireStream.step] at hstep
  split at hstep
  case isTrue hup =>
    obtain ⟨link, hlink, rfl⟩ := Option.map_eq_some_iff.1 hstep
    obtain ⟨link', hlink', hmirrors⟩ := h.link.deliver? hlink
    refine ⟨{ d with link := link' }, ?_, h.base, h.pending, h.user, h.replay, hmirrors, h.linkUp⟩
    rw [DataStream.step, if_pos (h.linkUp ▸ hup), hlink', Option.map_some]
  case isFalse => cases hstep

/-- **Step lemma.** Every step on the wire is a step of the sets. -/
theorem step (hcodec : codec.Faithful writable) {a : DataStream.Action} (h : Carries codec w d)
    (hstep : w.step codec.encode a = some w') : ∃ d', d.step writable a = some d' ∧ Carries codec w' d' := by
  cases a with
  | base a => exact h.base_step hstep
  | subscribe channel symbols => exact h.subscribe hcodec hstep
  | unsubscribe channel symbols => exact h.unsubscribe hcodec hstep
  | checkReady => exact h.checkReady hstep
  | userSend => exact h.userSend hstep
  | onReady => exact h.onReady hcodec hstep
  | sendReplay => exact h.sendReplay hstep
  | linkDown =>
    obtain rfl := Option.some.inj hstep
    exact ⟨_, rfl, h.base, h.pending, h.user, h.replay, h.link, rfl⟩
  | deliver => exact h.deliver hstep

end Carries

/-- **What the server reads.** In every run, whatever any thread does, whatever `encode` throws on and however
often the stream reconnects: the text on the wire amounts to a run of the sets with the same labels. So in a
quiescent state everything wanted has been read by the server if every subscription can be encoded, and
nothing else has if the unsubscribe frames of that run are orderly. -/
theorem wire_subscriptions {D : Type} {codec : FrameCodec D} {writable : Bytes → Bool}
    (hcodec : codec.Faithful writable) {callers : ℕ} {policy : ReconnectPolicy} {as : List DataStream.Action}
    {w : WireStream} (hrun : (WireStream.machine codec.encode).run (.start callers policy) as = some w) :
    ∃ d, (DataStream.machine writable).run (.start callers policy) as = some d ∧
      w.pending = d.pending ∧ w.server codec = d.server ∧ (w.Quiescent ↔ d.Quiescent) ∧
      (w.Quiescent →
        ((∀ a ∈ as, DataStream.Announceable writable a) → w.pending ⊆ w.server codec) ∧
        ((DataStream.machine writable).RunsUnder (DataStream.Orderly writable) (.start callers policy) as d →
          w.server codec ⊆ w.pending)) := by
  obtain ⟨d, hd, hcarries⟩ := (Machine.runsUnder_true_iff.2 hrun).simulate (N := DataStream.machine writable)
    (R := Carries codec) (fun _ _ _ _ h _ hstep ↦ h.step hcodec hstep) (.start codec callers policy)
  refine ⟨d, hd, hcarries.pending, hcarries.server_eq, hcarries.quiescent_iff, fun hquiescent ↦ ?_⟩
  have hq : d.Quiescent := hcarries.quiescent_iff.1 hquiescent
  rw [hcarries.server_eq, hcarries.pending]
  refine ⟨fun hannounceable ↦ ?_, fun horderly ↦ hq.server_subset horderly⟩
  have hunder := (Machine.runsUnder_true_iff.2 hd).and_forall hannounceable
  simp only [true_and] at hunder
  exact hq.pending_subset hunder

/-- The text of a subscription to the trades of one symbol. -/
def tradesText (symbol : Bytes) : Bytes :=
  bytes "\x7b\"action\":\"subscribe\",\"trades\":[\"" ++ symbol ++ bytes "\"]\x7d"

/-- The replay and the change after it, as the server reads them. -/
theorem wire_subscriptions_earlySubscriptions :
    ∃ w, (WireStream.machine (plainCodec ℚ).encode).run (.start 1 {}) DataStream.earlySubscriptions = some w ∧
      w.link.sent = [tradesText (bytes "AAPL"), tradesText (bytes "TSLA")] ∧
      w.pending ⊆ w.server (plainCodec ℚ) := by
  obtain ⟨w, hrun⟩ : ∃ w, (WireStream.machine (plainCodec ℚ).encode).run (.start 1 {})
      DataStream.earlySubscriptions = some w := Option.isSome_iff_exists.1 (by decide +kernel)
  have hend : ∀ w ∈ (WireStream.machine (plainCodec ℚ).encode).run (.start 1 {}) DataStream.earlySubscriptions,
      w.Quiescent ∧ w.link.sent = [tradesText (bytes "AAPL"), tradesText (bytes "TSLA")] := by decide +kernel
  obtain ⟨hquiescent, hsent⟩ := hend w hrun
  obtain ⟨_, _, _, _, _, hserver⟩ := wire_subscriptions (faithful_plainCodec ℚ) hrun
  exact ⟨w, hrun, hsent, (hserver hquiescent).1 (by decide +kernel)⟩

end Alpaca
