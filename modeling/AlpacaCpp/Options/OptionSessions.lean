import AlpacaCpp.Options.OptionDataStream
import AlpacaCpp.Streaming.Feeds

/-!
# Sessions of an option stream

An option stream reads all its frames with one decoder: a visitor that is only reset, one trade and one
quote that are overwritten, conditions whose storage is kept. A frame may be cut off in the middle of a
message, and an exception may leave the decoder wherever it stands.

`messageEffect` is what one message of a frame leads to, read off the message: control traffic is not
rebuilt as JSON, nothing is reused. `frameEffect` puts the messages of a frame one behind the other up to
the first that throws, and ends with the report of a frame that is malformed. **A session is its frames,
each by itself** (`optionStream_sessions`), and what a session throws or sends is a matter of the
subscriptions to be replayed.

The settings of the stream, which handlers are set and which symbols subscribed, may change between any two
messages, so they are a function of the position. Three steps lead to the result:

* a message is taken or not, and if it is taken its handling is its effect (`respondAll_spec`,
  `handle_controlPayload`);
* the messages of a frame are those the visitor finds in its bytes, so a frame has the effect of its
  messages from any clean decoder, and leaves it clean (`handleFrame_eq`);
* a session is an induction over its frames (`session_eq`).

`Tame` says what may be thrown and sent: an announcement of subscriptions, or the failure to encode one.
Nothing else in a frame throws when no handler does.
-/

namespace Alpaca

namespace OptionDataStream

variable {D : Type} [DoubleCasts D]

/-! ### What a message leads to -/

section Effects

variable (lib : JsonLibrary D) (encode : Json D → Except Bytes Bytes)

/-- A control message. -/
def controlEffect (s : StreamSetting) (m : RawMessage D) : Handling (StockMessage D) :=
  if m.type = bytes "success" then
    if m.text = bytes "authenticated" then markReady encode s else ⟨[], none⟩
  else if m.type = bytes "error" then reportError s ⟨i32 m.code.toInt, m.text⟩
  else if m.type = bytes "subscription" then
    ⟨if s.onSubscription then [.subscription { trades := m.trades, quotes := m.quotes }] else [], none⟩
  else ⟨[], none⟩

/-- Any message that is delivered. -/
def messageEffect (s : StreamSetting) (m : RawMessage D) : Handling (StockMessage D) :=
  match tickType m.type with
  | some .trade => ⟨[.message m.symbol (.trade (.ofMessage m))], none⟩
  | some .quote => ⟨[.message m.symbol (.quote (.ofMessage m))], none⟩
  | none => controlEffect encode s m

/-- Ticks are delivered to a handler that is set. -/
def heard (s : StreamSetting) (m : RawMessage D) : Bool :=
  match tickType m.type with
  | some .trade => s.isSet .trade
  | some .quote => s.isSet .quote
  | none => true

/-- Messages one behind the other, when `n` have been delivered, and how many have been in the end. -/
def respondAll (env : ℕ → StreamSetting) : ℕ → List (RawMessage D) → Handling (StockMessage D) × ℕ
  | n, [] => (⟨[], none⟩, n)
  | n, m :: ms =>
    if heard (env n) m then
      match messageEffect encode (env n) m with
      | ⟨outputs, some what⟩ => (⟨outputs, some what⟩, n + 1)
      | ⟨outputs, none⟩ =>
        let rest := respondAll env (n + 1) ms
        (⟨outputs ++ rest.1.outputs, rest.1.thrown⟩, rest.2)
    else respondAll env n ms

/-- The report of a frame that does not end as it should. -/
def malformed (s : StreamSetting) (what : Bytes) : Handling (StockMessage D) :=
  reportError s ⟨0, bytes "malformed stream frame: " ++ what⟩

/-- What the end of a frame adds. -/
def endEffect (s : StreamSetting) : ParseEnd → Handling (StockMessage D)
  | .success => ⟨[], none⟩
  | .failure => malformed s (bytes "truncated or invalid MessagePack")
  | .refused what => malformed s what

/-- A frame by itself. -/
def frameEffect (parser : MsgpackParser D) (env : ℕ → StreamSetting) (data : Bytes) : Handling (StockMessage D) :=
  if data.headD 0 < 0x80 then Alpaca.handleFrame lib (fun i ↦ handle lib encode (env i)) (env 0) data
  else
    let responses := respondAll encode env 0 (Decoder.fresh.visitor.messages (parser.events data))
    if responses.1.thrown = none then
      ⟨responses.1.outputs ++ (endEffect (env responses.2) (parser.finish data)).outputs, none⟩
    else responses.1

/-- The frames of a session, read with one decoder. -/
def session (parser : MsgpackParser D) (env : ℕ → ℕ → StreamSetting) :
    List Bytes → Decoder D → List (Handling (StockMessage D))
  | [], _ => []
  | data :: rest, d =>
    let handled := handleFrame lib encode parser (env 0) data d
    handled.1 :: session parser (fun i ↦ env (i + 1)) rest handled.2

end Effects

variable {lib : JsonLibrary D} {encode : Json D → Except Bytes Bytes} {s : StreamSetting} {m : RawMessage D}

/-- **Control traffic**, without the detour over JSON. -/
theorem handle_controlPayload (s : StreamSetting) (m : RawMessage D) :
    handle lib encode s (controlPayload m) = controlEffect encode s m := by
  have htype : (controlPayload m).member? (bytes "T") = some (.str m.type) := rfl
  rw [controlEffect]
  split
  case isTrue hsuccess =>
    rw [handle, handlePayload_success (hsuccess ▸ htype)]
    rfl
  case isFalse hsuccess =>
    split
    case isTrue herror =>
      rw [handle, handlePayload_error (herror ▸ htype), fromJson_error_controlPayload]
    case isFalse herror =>
      split
      case isTrue hsubs =>
        rw [handle, handlePayload_subscription (hsubs ▸ htype), fromJson_subscriptions_controlPayload]
        rcases s.onSubscription with - | - <;> rfl
      case isFalse hsubs =>
        rw [handle, handlePayload, htype]
        dsimp only
        rw [if_neg hsuccess, if_neg herror, if_neg hsubs, dispatch]

variable (lib encode) in
/-- A message that is heard is delivered, and leads to what it leads to. -/
theorem ofMessage_of_heard {env : ℕ → StreamSetting} (before : List (Delivery D))
    (h : heard (env before.length) m = true) :
    ∃ x, Delivery.ofMessage (surroundings lib encode env) before m = some x ∧
      onDelivery lib encode (env before.length) x = messageEffect encode (env before.length) m := by
  rw [heard] at h
  rw [Delivery.ofMessage, messageEffect]
  rcases htick : tickType m.type with - | - | - <;> rw [htick] at h
  · exact ⟨_, rfl, handle_controlPayload _ m⟩
  · exact ⟨_, if_pos h, rfl⟩
  · exact ⟨_, if_pos h, rfl⟩

/-- A message nobody listens to is not delivered. -/
theorem ofMessage_of_unheard {env : ℕ → StreamSetting} {before : List (Delivery D)}
    (h : ¬heard (env before.length) m = true) :
    Delivery.ofMessage (surroundings lib encode env) before m = none := by
  rw [heard] at h
  rw [Delivery.ofMessage]
  rcases htick : tickType m.type with - | - | - <;> rw [htick] at h
  · exact absurd rfl h
  · exact if_neg h
  · exact if_neg h

/-! ### One frame -/

/-- What the deliveries behind `n` others have led to. -/
def handlings (lib : JsonLibrary D) (encode : Json D → Except Bytes Bytes) (env : ℕ → StreamSetting) (n : ℕ)
    (deliveries : List (Delivery D)) : List (Handling (StockMessage D)) :=
  deliveries.mapIdx fun i x ↦ onDelivery lib encode (env (n + i)) x

/-- The handlings of several deliveries, from the front. -/
theorem handlings_cons (env : ℕ → StreamSetting) (n : ℕ) (x : Delivery D) (deliveries : List (Delivery D)) :
    handlings lib encode env n (x :: deliveries) =
      onDelivery lib encode (env n) x :: handlings lib encode env (n + 1) deliveries := by
  rw [handlings, List.mapIdx_cons, handlings]
  refine congrArg _ (congrArg (fun f ↦ List.mapIdx f deliveries) (funext₂ fun i x ↦ ?_))
  rw [Nat.add_assoc, Nat.add_comm 1 i]

/-- The handler of the last delivery is the one that throws. -/
theorem throws_concat (env : ℕ → StreamSetting) (taken : List (Delivery D)) (x : Delivery D) :
    (surroundings lib encode env).throws (taken ++ [x]) =
      (onDelivery lib encode (env taken.length) x).thrown.isSome := by
  simp [surroundings]

variable (lib encode) in
/-- **The messages of a frame**, taken by a decoder, lead to what they lead to one by one: in the outputs,
in the exception that ends the frame, and in the count of what has been delivered. -/
theorem respondAll_spec (env : ℕ → StreamSetting) (ms : List (RawMessage D)) (taken : List (Delivery D)) :
    ∃ more abandoned, ms.foldl (take (surroundings lib encode env)) (taken, false) = (taken ++ more, abandoned) ∧
      (respondAll encode env taken.length ms).1.outputs =
        ((handlings lib encode env taken.length more).map Handling.outputs).flatten ∧
      (abandoned = true → (respondAll encode env taken.length ms).1.thrown ≠ none ∧
        (respondAll encode env taken.length ms).1.thrown =
          (handlings lib encode env taken.length more).getLast?.bind (·.thrown)) ∧
      (abandoned = false → (respondAll encode env taken.length ms).1.thrown = none ∧
        (respondAll encode env taken.length ms).2 = taken.length + more.length) := by
  induction ms generalizing taken with
  | nil => exact ⟨[], false, by rw [List.append_nil]; rfl, rfl, by simp, fun _ ↦ ⟨rfl, rfl⟩⟩
  | cons m ms ih =>
    rw [List.foldl_cons, take, if_neg Bool.false_ne_true, respondAll]
    rcases hheard : heard (env taken.length) m with - | -
    · rw [ofMessage_of_unheard (by simp [hheard]), if_neg Bool.false_ne_true]
      exact ih taken
    · obtain ⟨x, hx, heffect⟩ := ofMessage_of_heard lib encode taken hheard
      rw [hx, if_pos rfl]
      dsimp only
      rw [throws_concat, heffect]
      rcases hthrown : messageEffect encode (env taken.length) m with ⟨outputs, - | what⟩
      · -- The message behind it finds one more delivery.
        obtain ⟨more, abandoned, hfold, houtputs, habandoned, hreturned⟩ := ih (taken ++ [x])
        rw [List.length_append, List.length_singleton] at houtputs habandoned hreturned
        refine ⟨x :: more, abandoned, ?_, ?_, fun h ↦ ?_, fun h ↦ ?_⟩
        · rw [Option.isSome_none, hfold, List.append_assoc, List.singleton_append]
        · rw [handlings_cons, List.map_cons, List.flatten_cons, heffect, hthrown, ← houtputs]
        · obtain ⟨hne, hlast⟩ := habandoned h
          refine ⟨hne, ?_⟩
          rw [handlings_cons]
          rcases hmore : handlings lib encode env (taken.length + 1) more with - | ⟨y, rest⟩
          · rw [hmore] at hlast
            exact absurd hlast hne
          · rw [List.getLast?_cons_cons, ← hmore]
            exact hlast
        · obtain ⟨hnone, hcount⟩ := hreturned h
          refine ⟨hnone, ?_⟩
          rw [hcount, List.length_cons]
          omega
      · refine ⟨[x], true, Decoding.foldl_take_of_abandoned _ ms, ?_, fun _ ↦ ⟨by simp, ?_⟩, fun h ↦ by cases h⟩
        · rw [handlings_cons, heffect, hthrown]
          exact (List.append_nil outputs).symm
        · rw [handlings_cons, heffect, hthrown]
          rfl

variable {parser : MsgpackParser D}

variable (lib encode) in
/-- **A frame** leads to the same behind any frames before it. -/
theorem handleFrame_eq (hwalks : parser.Walks) (env : ℕ → StreamSetting) (data : Bytes) {d : Decoder D}
    (hd : d.Clean) :
    (handleFrame lib encode parser env data d).1 = frameEffect lib encode parser env data ∧
      (handleFrame lib encode parser env data d).2.Clean := by
  rw [handleFrame, frameEffect]
  by_cases htext : data.headD 0 < 0x80
  · rw [if_pos htext, if_pos htext]
    exact ⟨rfl, hd⟩
  rw [if_neg htext, if_neg htext]
  have hclean := (Decoder.follows_run parser (surroundings lib encode env) data hd).clean
  have hrun := Decoder.deliveries_run parser (surroundings lib encode env) data hd
  obtain ⟨frame, hprefix⟩ := hwalks data
  rw [MessageVisitor.messages_eq _ Decoder.fresh.visitor (Sax.Nested.of_prefix hprefix)] at hrun
  obtain ⟨deliveries, abandoned, hfold, houtputs, habandoned, hreturned⟩ :=
    respondAll_spec lib encode env (Decoder.fresh.visitor.messages (parser.events data)) []
  rw [hfold] at hrun
  obtain ⟨hdeliveries, hstate⟩ := Prod.mk.inj hrun
  rw [List.nil_append] at hdeliveries
  have hhandlings : (deliveries.mapIdx fun i x ↦ onDelivery lib encode (env i) x) =
      handlings lib encode env 0 deliveries := by
    simp only [handlings, Nat.zero_add]
  simp only [Decoder.decode, hdeliveries, hstate, hhandlings]
  rw [List.length_nil] at houtputs habandoned hreturned
  rcases abandoned with - | -
  · obtain ⟨hnone, hcount⟩ := hreturned rfl
    rw [if_pos hnone, hcount, houtputs, Nat.zero_add]
    rcases parser.finish data with - | - | what
    · exact ⟨congrArg (fun outputs ↦ (⟨outputs, none⟩ : Handling (StockMessage D)))
        (List.append_nil _).symm, hclean⟩
    · exact ⟨rfl, hclean⟩
    · exact ⟨rfl, hclean⟩
  · obtain ⟨hne, hlast⟩ := habandoned rfl
    rw [if_neg hne, ← houtputs, ← hlast]
    exact ⟨rfl, hclean⟩

/-! ### What is thrown and what is sent -/

/-- Subscriptions to be replayed that cannot be encoded. -/
def Unannounceable (encode : Json D → Except Bytes Bytes) (s : StreamSetting) : Prop :=
  (∃ c ∈ s.channels, c.2 ≠ []) ∧
    ∀ payload, encode (subscriptionFrame (bytes "subscribe") s.channels) ≠ .ok payload

/-- Handling that throws and sends for the sake of replays only, in some of the settings. -/
structure Tame (encode : Json D → Except Bytes Bytes) (P : StreamSetting → Prop) (h : Handling (StockMessage D)) :
    Prop where
  thrown : h.thrown ≠ none → ∃ s, P s ∧ Unannounceable encode s
  sent : Feed.Announces
    (fun payload ↦ ∃ s, P s ∧ encode (subscriptionFrame (bytes "subscribe") s.channels) = .ok payload) false
    h.outputs

section Tame

variable {P : StreamSetting → Prop} {h h' : Handling (StockMessage D)}

omit [DoubleCasts D] in
theorem Tame.nothing : Tame (D := D) encode P ⟨[], none⟩ := ⟨fun h ↦ absurd rfl h, trivial⟩

omit [DoubleCasts D] in
/-- An output that is no replay. -/
theorem Tame.single {c : Prop} [Decidable c] {output : StreamOutput (StockMessage D)} (hready : output ≠ .ready)
    (hsend : ∀ payload, output ≠ .send payload) : Tame encode P ⟨if c then [output] else [], none⟩ :=
  ⟨fun h ↦ absurd rfl h, Feed.announces_single hready hsend⟩

omit [DoubleCasts D] in
theorem Tame.append (hh : Tame encode P h) (hh' : Tame encode P h') :
    Tame encode P ⟨h.outputs ++ h'.outputs, h'.thrown⟩ :=
  ⟨hh'.thrown, hh.sent.append hh'.sent⟩

omit [DoubleCasts D] in
theorem tame_reportError (e : StreamError) : Tame (D := D) encode P (reportError s e) :=
  .single (by simp) (by simp)

omit [DoubleCasts D] in
/-- An authentication. -/
theorem tame_markReady (hs : P s) : Tame (D := D) encode P (markReady encode s) := by
  have hconnected : Feed.Announces (M := StockMessage D)
      (fun payload ↦ ∃ s, P s ∧ encode (subscriptionFrame (bytes "subscribe") s.channels) = .ok payload) false
      (if s.onConnected then [.connected] else []) := Feed.announces_single (by simp) (by simp)
  rw [markReady]
  split
  case isTrue hany =>
    rcases hencode : encode (subscriptionFrame (bytes "subscribe") s.channels) with what | payload
    · exact ⟨fun _ ↦ ⟨s, hs, hany, fun payload ↦ by simp [hencode]⟩, trivial⟩
    · exact ⟨fun h ↦ absurd rfl h, rfl, ⟨s, hs, hencode⟩, hconnected⟩
  case isFalse => exact ⟨fun h ↦ absurd rfl h, hconnected.of_false⟩

/-- A JSON message. -/
theorem tame_handle {payload : Json D} (hj : lib.PrintsAll payload) (hs : P s) :
    Tame encode P (handle lib encode s payload) := by
  rw [handle, handlePayload]
  split
  case h_1 type _ =>
    split
    case isTrue =>
      split
      case h_1 =>
        split
        · exact tame_markReady hs
        · exact .nothing
      case h_2 => exact .nothing
    case isFalse =>
      split
      case isTrue =>
        obtain ⟨e, he⟩ := StreamError.total_fromJson hj.self {}
        rw [he]
        exact tame_reportError e
      case isFalse =>
        split
        case isTrue =>
          obtain ⟨subs, hsubs⟩ := Subscriptions.total_fromJson hj.self {}
          rw [hsubs]
          split
          · exact ⟨fun h ↦ absurd rfl h, trivial⟩
          · exact .nothing
        case isFalse => exact .nothing
  case h_2 => exact .nothing

omit [DoubleCasts D] in
/-- A message of a binary frame. -/
theorem tame_messageEffect (hs : P s) (m : RawMessage D) : Tame encode P (messageEffect encode s m) := by
  rw [messageEffect]
  rcases tickType m.type with - | - | -
  · dsimp only
    rw [controlEffect]
    split
    · split
      · exact tame_markReady hs
      · exact .nothing
    · split
      · exact tame_reportError _
      · split
        · exact .single (by simp) (by simp)
        · exact .nothing
  · exact ⟨fun h ↦ absurd rfl h, trivial⟩
  · exact ⟨fun h ↦ absurd rfl h, trivial⟩

variable {env : ℕ → StreamSetting}

omit [DoubleCasts D] in
/-- The messages of a binary frame are tame. -/
theorem tame_respondAll (hP : ∀ k, P (env k)) (n : ℕ) (ms : List (RawMessage D)) :
    Tame encode P (respondAll encode env n ms).1 := by
  induction ms generalizing n with
  | nil => exact .nothing
  | cons m ms ih =>
    rw [respondAll]
    split
    · have heffect : Tame encode P (messageEffect encode (env n) m) := tame_messageEffect (hP n) m
      rcases heq : messageEffect encode (env n) m with ⟨outputs, - | what⟩ <;> rw [heq] at heffect
      · exact heffect.append (ih (n + 1))
      · exact heffect
    · exact ih n

/-- The messages of a text frame are tame. -/
theorem tame_handleAll (hP : ∀ k, P (env k)) {messages : List (Json D)}
    (hmessages : ∀ message ∈ messages, lib.PrintsAll message) :
    Tame encode P (handleAll (fun i ↦ handle lib encode (env i)) messages) := by
  induction messages generalizing env with
  | nil => exact .nothing
  | cons message messages ih =>
    rw [List.forall_mem_cons] at hmessages
    have hfirst : Tame encode P (handle lib encode (env 0) message) := tame_handle hmessages.1 (hP 0)
    have hrest := ih (fun k ↦ hP (k + 1)) hmessages.2
    rw [handleAll]
    rcases heq : handle lib encode (env 0) message with ⟨outputs, - | what⟩ <;> rw [heq] at hfirst
    · exact hfirst.append hrest
    · exact hfirst

/-- Every frame is tame. -/
theorem tame_frameEffect (hlib : lib.ParsedPrints) (hP : ∀ k, P (env k)) (data : Bytes) :
    Tame encode P (frameEffect lib encode parser env data) := by
  rw [frameEffect]
  split
  case isTrue =>
    rcases hparse : lib.parse data with what | j
    · rw [Alpaca.handleFrame, hparse]
      exact tame_reportError _
    · rw [StockDataStream.handleFrame_of_parse _ _ hparse]
      refine tame_handleAll hP fun message hmem p hp ↦ hlib data j p hparse ?_
      cases j with
      | arr messages => exact .elem hmem hp
      | _ => exact List.mem_singleton.1 hmem ▸ hp
  case isFalse =>
    have hresponses : Tame encode P
        (respondAll encode env 0 (Decoder.fresh.visitor.messages (parser.events data))).1 := tame_respondAll hP 0 _
    dsimp only
    split
    · refine ⟨fun h ↦ absurd rfl h, hresponses.sent.append ?_⟩
      rcases parser.finish data with - | - | what
      · exact trivial
      · exact (tame_reportError _).sent
      · exact (tame_reportError _).sent
    · exact hresponses

end Tame

/-! ### Sessions -/

variable (lib encode parser) in
/-- **A session as it should be**: each frame leads to what it leads to by itself; an exception is always
that of subscriptions that cannot be encoded; and what is sent throughout is the subscriptions of the
moment, right behind an authentication, and nothing else. -/
structure SessionSpec (env : ℕ → ℕ → StreamSetting) (frames : List Bytes) (results : List (Handling (StockMessage D))) :
    Prop where
  handled : results = frames.mapIdx fun i data ↦ frameEffect lib encode parser (env i) data
  thrown : ∀ h ∈ results, h.thrown ≠ none → ∃ i k, Unannounceable encode (env i k)
  sent : Feed.Announces
    (fun payload ↦ ∃ i k, encode (subscriptionFrame (bytes "subscribe") (env i k).channels) = .ok payload) false
    (results.map Handling.outputs).flatten

/-- **A session, frame by frame**, from any clean decoder. -/
theorem session_eq (hwalks : parser.Walks) (env : ℕ → ℕ → StreamSetting) (frames : List Bytes) {d : Decoder D}
    (hd : d.Clean) :
    session lib encode parser env frames d =
      frames.mapIdx fun i data ↦ frameEffect lib encode parser (env i) data := by
  induction frames generalizing env d with
  | nil => rfl
  | cons data rest ih =>
    obtain ⟨heffect, hclean⟩ := handleFrame_eq lib encode hwalks (env 0) data hd
    rw [session, List.mapIdx_cons, heffect, ih (fun i ↦ env (i + 1)) hclean]

end OptionDataStream

/-- **Every session of an option stream**, whatever frames come in, and however the handlers and the
subscriptions change between the messages. -/
theorem optionStream_sessions {D : Type} [DoubleCasts D] {lib : JsonLibrary D} (hlib : lib.ParsedPrints)
    (encode : Json D → Except Bytes Bytes) {parser : MsgpackParser D} (hwalks : parser.Walks)
    (env : ℕ → ℕ → StreamSetting) (frames : List Bytes) :
    OptionDataStream.SessionSpec lib encode parser env frames
      (OptionDataStream.session lib encode parser env frames .fresh) := by
  have htame : ∀ h ∈ OptionDataStream.session lib encode parser env frames .fresh,
      OptionDataStream.Tame encode (fun s ↦ ∃ i k, s = env i k) h := by
    rw [OptionDataStream.session_eq hwalks env frames Decoder.clean_fresh]
    intro h hmem
    obtain ⟨i, hi, rfl⟩ := List.mem_mapIdx.1 hmem
    exact OptionDataStream.tame_frameEffect hlib (fun k ↦ ⟨i, k, rfl⟩) frames[i]
  refine ⟨OptionDataStream.session_eq hwalks env frames Decoder.clean_fresh, fun h hmem hthrown ↦ ?_, ?_⟩
  · obtain ⟨s, ⟨i, k, rfl⟩, hs⟩ := (htame h hmem).thrown hthrown
    exact ⟨i, k, hs⟩
  · refine Feed.announces_flatten fun part hpart ↦ ?_
    obtain ⟨h, hmem, rfl⟩ := List.mem_map.1 hpart
    refine (htame h hmem).sent.mono fun payload ↦ ?_
    rintro ⟨s, ⟨i, k, rfl⟩, hs⟩
    exact ⟨i, k, hs⟩

/-- A stream that wants the trades of `A`, with every handler set. -/
def tradesSetting : StreamSetting where
  isSet _ := true
  onError := true
  onSubscription := true
  onConnected := true
  channels := [(bytes "trades", [bytes "A"])]

/-- A trade of `A` that is cut off, and one that has no symbol: the second frame knows nothing of the first.
-/
theorem optionStream_sessions_cutFrame :
    let session := OptionDataStream.session booksJson booksJson.dump Decoder.tableParser (fun _ _ ↦ tradesSetting)
      [Decoder.cutFrame, Decoder.bareTradeFrame] .fresh
    session = [⟨[.error ⟨0, bytes "malformed stream frame: truncated or invalid MessagePack"⟩], none⟩,
        ⟨[.message [] (.trade .empty)], none⟩] ∧
      OptionDataStream.SessionSpec booksJson booksJson.dump Decoder.tableParser (fun _ _ ↦ tradesSetting)
        [Decoder.cutFrame, Decoder.bareTradeFrame] session :=
  ⟨by rfl, optionStream_sessions (fun _ _ k _ _ ↦ ⟨StockDataStream.plainText k, rfl⟩) booksJson.dump
    Decoder.tableParser_walks _ _⟩

end Alpaca
