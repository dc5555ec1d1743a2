import AlpacaCpp.Clients.Listings
import AlpacaCpp.Data.Latest
import AlpacaCpp.Streaming.HandleFrame

/-!
# The market data streams

Stock, crypto and news streams share `data_stream_base` and differ in `dispatch`: which types they know,
and how a payload of each is read. A `Feed` is such a `dispatch`, with what its payloads must be for
`from_json` to return as a law.

Handlers may be attached and detached while frames come in, and the subscriptions change; so each message
of each frame finds a setting of its own. `Feed.sessionSpec_handleFrame` says for whole sessions of any
feed **what every message leads to**, up to the first of its frame that is refused, and that the service
thread sends nothing but the subscriptions, right behind an authentication. The streams are instances
(`dataStreams_sessions`).

A message is of one of five sorts: an authentication, an error, a list of subscriptions, data of a type
the feed knows, or anything else. `Responds` says for each what comes of it, and `Refuses` which messages
throw. Only two do: data that somebody listens to and that cannot be read, and an authentication whose
replay cannot be encoded. `handle_spec` is the one place where this is compared with the code.

From there it is lists. A frame is one message or an array of them, and an array is handled up to the
first message that is refused (`handleAll_spec`); a session is its frames. `Announces` follows what is
sent through the same lists: a payload only right behind an authentication, and only one that replays the
subscriptions of that moment. What user handlers send themselves is not part of this, and they do not
throw.

The stock stream is the one of `Streaming/HandleFrame`, written as in the source and shown to be the one
of its feed (`StockDataStream.handleFrame_eq`). The other two are feeds from the start: a stream that is
added needs its types, their readers and the law, and has its sessions.
-/

namespace Alpaca

variable {D M : Type}

/-! ### Feeds

A feed has its types, their payloads, and the reader of each, together with the law that says when the
reader returns. What is not in the structure is shared by the streams and modelled once: the control
messages, the replay, and the loop over a frame. -/

/-- The type of a message. -/
def typeOf (message : Json D) : Option Bytes :=
  match message.member? (bytes "T") with
  | some (.str type) => some type
  | _ => none

/-- What a stream adds to `data_stream_base`. -/
structure Feed (D M : Type) where
  /-- The types of its payloads. -/
  Kind : Type
  /-- The switch of `dispatch`. -/
  ofBytes : Bytes → Option Kind
  /-- What is handed over beside the payload. -/
  symbolOf : Json D → Bytes
  /-- `from_json` of a payload, on a default value. -/
  read : JsonLibrary D → Kind → Json D → Except Bytes M
  /-- A payload that can be read. -/
  Readable : Kind → Json D → Prop
  /-- Control messages are handled before `dispatch` is called. -/
  ofBytes_control : ∀ name ∈ ["success", "error", "subscription"], ofBytes (bytes name) = none
  exists_read_iff : ∀ (lib : JsonLibrary D) (k : Kind) (j : Json D), lib.PrintsAll j →
    ((∃ m, read lib k j = .ok m) ↔ Readable k j)

/-- What the service thread finds when it handles a message. -/
structure FeedSetting (K : Type) where
  /-- Which data handlers are set. -/
  isSet : K → Bool
  onError : Bool
  onSubscription : Bool
  onConnected : Bool
  /-- `channels_`, in order. -/
  channels : List (Bytes × List Bytes)

/-- What the base class has of it. -/
def FeedSetting.toStreamSetting {K : Type} (s : FeedSetting K) : StreamSetting where
  isSet _ := false
  onError := s.onError
  onSubscription := s.onSubscription
  onConnected := s.onConnected
  channels := s.channels

namespace Feed

variable (F : Feed D M) (lib : JsonLibrary D)

/-- `deliver` -/
def deliver (s : FeedSetting F.Kind) (k : F.Kind) (message : Json D) : Handling M :=
  if s.isSet k then
    match F.read lib k message with
    | .ok m => ⟨[.message (F.symbolOf message) m], none⟩
    | .error what => ⟨[], some what⟩
  else ⟨[], none⟩

/-- `dispatch` -/
def dispatch (s : FeedSetting F.Kind) (type : Bytes) (message : Json D) : Handling M :=
  match F.ofBytes type with
  | some k => F.deliver lib s k message
  | none => ⟨[], none⟩

/-- The data a message holds for a handler. -/
def kindOf (message : Json D) : Option F.Kind := (typeOf message).bind F.ofBytes

/-- A message that cannot be handled: a payload for a handler that is set, and that cannot be read, or the
authentication of a stream whose subscriptions cannot be printed. -/
def Refuses (s : FeedSetting F.Kind) (message : Json D) : Prop :=
  (∃ k, F.kindOf message = some k ∧ s.isSet k = true ∧ ¬F.Readable k message) ∨
    (StockDataStream.Authenticated message ∧ (∃ c ∈ s.channels, c.2 ≠ []) ∧
      ¬lib.Prints (subscriptionFrame (bytes "subscribe") s.channels))

/-- What the replay of the subscriptions sends. -/
def Replays (channels : List (Bytes × List Bytes)) (payloads : List Bytes) : Prop :=
  if ∃ c ∈ channels, c.2 ≠ [] then
    ∃ payload, lib.dump (subscriptionFrame (bytes "subscribe") channels) = .ok payload ∧ payloads = [payload]
  else payloads = []

/-- What a message leads to. -/
structure Responds [DoubleCasts D] (s : FeedSetting F.Kind) (message : Json D) (outputs : List (StreamOutput M)) :
    Prop where
  authenticated : StockDataStream.Authenticated message → ∃ payloads, Replays lib s.channels payloads ∧
    outputs = .ready :: payloads.map .send ++ if s.onConnected then [.connected] else []
  error : typeOf message = some (bytes "error") → ∃ e, StreamError.fromJson lib message {} = .ok e ∧
    outputs = if s.onError then [.error e] else []
  subscription : typeOf message = some (bytes "subscription") →
    ∃ subs, Subscriptions.fromJson lib message {} = .ok subs ∧
      outputs = if s.onSubscription then [.subscription subs] else []
  data : ∀ k, F.kindOf message = some k → s.isSet k = true →
    ∃ m, F.read lib k message = .ok m ∧ outputs = [.message (F.symbolOf message) m]
  unset : ∀ k, F.kindOf message = some k → s.isSet k = false → outputs = []
  silent : ¬StockDataStream.Authenticated message → typeOf message ≠ some (bytes "error") →
    typeOf message ≠ some (bytes "subscription") → F.kindOf message = none → outputs = []

/-- What is left of a message that is refused: an authentication has changed the state. -/
def Stranded (message : Json D) (outputs : List (StreamOutput M)) : Prop :=
  (StockDataStream.Authenticated message ∧ outputs = [.ready]) ∨
    (¬StockDataStream.Authenticated message ∧ outputs = [])

section Handling

variable [DoubleCasts D]

/-- `handle_payload` -/
def handle (s : FeedSetting F.Kind) (payload : Json D) : Handling M :=
  handlePayload lib lib.dump (F.dispatch lib s) s.toStreamSetting payload

/-- `handle_frame`, in whatever state each message finds the stream. -/
def handleFrame (env : ℕ → FeedSetting F.Kind) (data : Bytes) : Handling M :=
  Alpaca.handleFrame lib (fun i ↦ F.handle lib (env i)) (env 0).toStreamSetting data

end Handling

/-! ### One message

First what `dispatch` does with a type it knows or does not know, then what `handle_payload` does in front
of it. `handle_spec` puts them together: a message is refused, or it has its response. -/

variable {F lib} {s : FeedSetting F.Kind} {message : Json D}

theorem typeOf_eq_some {type : Bytes} : typeOf message = some type ↔
    message.member? (bytes "T") = some (.str type) := by
  rw [typeOf]
  rcases message.member? (bytes "T") with - | (- | - | - | - | t | - | -) <;> simp

theorem dispatch_of_some {type : Bytes} {k : F.Kind} (h : F.ofBytes type = some k) :
    F.dispatch lib s type message = F.deliver lib s k message := by
  rw [dispatch, h]

theorem dispatch_of_none {type : Bytes} (h : F.ofBytes type = none) :
    F.dispatch lib s type message = ⟨[], none⟩ := by
  rw [dispatch, h]

theorem deliver_of_unset {k : F.Kind} (h : s.isSet k = false) : F.deliver lib s k message = ⟨[], none⟩ := by
  rw [deliver, if_neg (by simp [h])]

theorem deliver_of_ok {k : F.Kind} {m : M} (h : s.isSet k = true) (hm : F.read lib k message = .ok m) :
    F.deliver lib s k message = ⟨[.message (F.symbolOf message) m], none⟩ := by
  rw [deliver, if_pos h, hm]

theorem deliver_of_error {k : F.Kind} {what : Bytes} (h : s.isSet k = true)
    (hwhat : F.read lib k message = .error what) : F.deliver lib s k message = ⟨[], some what⟩ := by
  rw [deliver, if_pos h, hwhat]

/-- A data message is no control message. -/
theorem ne_control_of_kindOf {k : F.Kind} (h : F.kindOf message = some k) {name : String}
    (hname : name ∈ ["success", "error", "subscription"]) : typeOf message ≠ some (bytes name) := by
  intro htype
  rw [kindOf, htype, Option.bind_some, F.ofBytes_control name hname] at h
  exact absurd h (by simp)

theorem not_authenticated_of_kindOf {k : F.Kind} (h : F.kindOf message = some k) :
    ¬StockDataStream.Authenticated message :=
  fun hauth ↦ ne_control_of_kindOf h (by simp) (typeOf_eq_some.2 hauth.1)

section Handling

variable [DoubleCasts D]

/-- Data messages are delivered. -/
theorem handle_of_kindOf {k : F.Kind} (h : F.kindOf message = some k) :
    F.handle lib s message = F.deliver lib s k message := by
  obtain ⟨type, htype, hk⟩ := Option.bind_eq_some_iff.1 h
  have hne : ∀ name ∈ ["success", "error", "subscription"], type ≠ bytes name := by
    rintro name hname rfl
    exact ne_control_of_kindOf h hname htype
  rw [handle, handlePayload, typeOf_eq_some.1 htype]
  dsimp only
  rw [if_neg (hne "success" (by simp)), if_neg (hne "error" (by simp)), if_neg (hne "subscription" (by simp)),
    dispatch, hk]

/-- The second success authenticates. -/
theorem handle_of_authenticated (h : StockDataStream.Authenticated message) :
    F.handle lib s message = markReady lib.dump s.toStreamSetting := by
  rw [handle, handlePayload, h.1]
  dsimp only
  rw [if_pos rfl, h.2]
  exact if_pos rfl

/-- The rest is passed over. -/
theorem handle_of_silent (hauth : ¬StockDataStream.Authenticated message)
    (herror : typeOf message ≠ some (bytes "error")) (hsubs : typeOf message ≠ some (bytes "subscription"))
    (hkind : F.kindOf message = none) : F.handle lib s message = ⟨[], none⟩ := by
  rw [StockDataStream.Authenticated] at hauth
  rw [kindOf] at hkind
  rw [typeOf] at herror hsubs hkind
  rw [handle, handlePayload]
  generalize message.member? (bytes "T") = found at hauth herror hsubs hkind ⊢
  rcases found with - | (- | - | - | - | type | - | -)
  case some.str =>
    dsimp only at herror hsubs hkind ⊢
    rw [if_neg fun h ↦ herror (congrArg some h), if_neg fun h ↦ hsubs (congrArg some h)]
    split
    case isTrue hsuccess =>
      -- `success` with another text than `authenticated`
      rcases hmsg : message.member? (bytes "msg") with - | (- | - | - | - | msg | - | -)
      case some.str =>
        refine if_neg fun h ↦ hauth ⟨by rw [hsuccess], ?_⟩
        rw [hmsg, h]
      all_goals rfl
    case isFalse =>
      exact dispatch_of_none hkind
  all_goals rfl

variable (lib) in
omit [DoubleCasts D] in
/-- An authentication replays the subscriptions, when they can be printed. -/
theorem markReady_spec (s : FeedSetting F.Kind) : (∃ payloads, Replays lib s.channels payloads ∧
      (markReady lib.dump s.toStreamSetting : Handling M) =
        ⟨.ready :: payloads.map .send ++ if s.onConnected then [.connected] else [], none⟩) ∨
    ((∃ c ∈ s.channels, c.2 ≠ []) ∧ ¬lib.Prints (subscriptionFrame (bytes "subscribe") s.channels) ∧
      ∃ what, (markReady lib.dump s.toStreamSetting : Handling M) = ⟨[.ready], some what⟩) := by
  rw [markReady]
  split
  case isTrue hany =>
    rcases hdump : lib.dump (subscriptionFrame (bytes "subscribe") s.toStreamSetting.channels) with what | payload
    · refine Or.inr ⟨hany, ?_, what, rfl⟩
      rintro ⟨text, htext⟩
      exact absurd (hdump.symm.trans htext) (by simp)
    · refine Or.inl ⟨[payload], ?_, rfl⟩
      rw [Replays, if_pos (show ∃ c ∈ s.channels, c.2 ≠ [] from hany)]
      exact ⟨payload, hdump, rfl⟩
  case isFalse hnone =>
    refine Or.inl ⟨[], ?_, rfl⟩
    rw [Replays, if_neg (show ¬∃ c ∈ s.channels, c.2 ≠ [] from hnone)]

/-- A message for a handler. -/
theorem handle_data {k : F.Kind} (hj : lib.PrintsAll message) (hkind : F.kindOf message = some k) :
    (s.isSet k = false ∧ F.handle lib s message = ⟨[], none⟩) ∨
    (s.isSet k = true ∧ F.Readable k message ∧ ∃ m, F.read lib k message = .ok m ∧
      F.handle lib s message = ⟨[.message (F.symbolOf message) m], none⟩) ∨
    (s.isSet k = true ∧ ¬F.Readable k message ∧ ∃ what, F.handle lib s message = ⟨[], some what⟩) := by
  rw [handle_of_kindOf hkind, ← F.exists_read_iff lib k message hj]
  rcases hset : s.isSet k with - | -
  · exact Or.inl ⟨rfl, deliver_of_unset hset⟩
  · rcases hread : F.read lib k message with what | m
    · exact Or.inr (Or.inr ⟨rfl, by simp, what, deliver_of_error hset hread⟩)
    · exact Or.inr (Or.inl ⟨rfl, ⟨m, rfl⟩, m, rfl, deliver_of_ok hset hread⟩)

/-- A message without data, and no authentication, is never refused. -/
theorem handle_control (hj : lib.PrintsAll message) (hauth : ¬StockDataStream.Authenticated message)
    (hkind : F.kindOf message = none) :
    (F.handle lib s message).thrown = none ∧ F.Responds lib s message (F.handle lib s message).outputs := by
  have hdata : ∀ {p : Prop} (k : F.Kind), F.kindOf message = some k → p :=
    fun k hk ↦ absurd (hkind.symm.trans hk) (by simp)
  have hdiffer : (bytes "error" : Bytes) ≠ bytes "subscription" := by decide
  by_cases herror : typeOf message = some (bytes "error")
  · obtain ⟨e, he⟩ := StreamError.total_fromJson hj.self {}
    have hhandle : F.handle lib s message = ⟨if s.onError then [.error e] else [], none⟩ := by
      rw [handle, handlePayload_error (typeOf_eq_some.1 herror), he]
      rfl
    rw [hhandle]
    exact ⟨rfl, fun h ↦ absurd h hauth, fun _ ↦ ⟨e, he, rfl⟩,
      fun h ↦ absurd (Option.some.inj (herror.symm.trans h)) hdiffer, fun k hk ↦ hdata k hk,
      fun k hk ↦ hdata k hk, fun _ h ↦ absurd herror h⟩
  by_cases hsubs : typeOf message = some (bytes "subscription")
  · obtain ⟨subs, h⟩ := Subscriptions.total_fromJson hj.self {}
    have hhandle : F.handle lib s message = ⟨if s.onSubscription then [.subscription subs] else [], none⟩ := by
      rw [handle, handlePayload_subscription (typeOf_eq_some.1 hsubs), h]
      rcases hset : s.onSubscription with - | - <;> simp [FeedSetting.toStreamSetting, hset]
    rw [hhandle]
    exact ⟨rfl, fun h ↦ absurd h hauth, fun h ↦ absurd h herror, fun _ ↦ ⟨subs, h, rfl⟩, fun k hk ↦ hdata k hk,
      fun k hk ↦ hdata k hk, fun _ _ h ↦ absurd hsubs h⟩
  · rw [handle_of_silent hauth herror hsubs hkind]
    exact ⟨rfl, fun h ↦ absurd h hauth, fun h ↦ absurd h herror, fun h ↦ absurd h hsubs, fun k hk ↦ hdata k hk,
      fun k hk ↦ hdata k hk, fun _ _ _ _ ↦ rfl⟩

/-- What a data message leads to is a matter of its handler. -/
theorem responds_data {k : F.Kind} (hkind : F.kindOf message = some k) {outputs : List (StreamOutput M)}
    (hset : s.isSet k = true → ∃ m, F.read lib k message = .ok m ∧ outputs = [.message (F.symbolOf message) m])
    (hunset : s.isSet k = false → outputs = []) : F.Responds lib s message outputs where
  authenticated h := absurd h (not_authenticated_of_kindOf hkind)
  error h := absurd h (ne_control_of_kindOf hkind (by simp))
  subscription h := absurd h (ne_control_of_kindOf hkind (by simp))
  data k' hk' := by
    obtain rfl := Option.some.inj (hkind.symm.trans hk')
    exact hset
  unset k' hk' := by
    obtain rfl := Option.some.inj (hkind.symm.trans hk')
    exact hunset
  silent _ _ _ h := absurd (hkind.symm.trans h) (by simp)

/-- What an authentication leads to is the replay. -/
theorem responds_authenticated (hauth : StockDataStream.Authenticated message) (hkind : F.kindOf message = none)
    {payloads : List Bytes} (hreplays : Replays lib s.channels payloads) : F.Responds lib s message
      (.ready :: payloads.map .send ++ if s.onConnected then [.connected] else []) where
  authenticated _ := ⟨payloads, hreplays, rfl⟩
  error h := absurd (Option.some.inj ((typeOf_eq_some.2 hauth.1).symm.trans h)) (by decide)
  subscription h := absurd (Option.some.inj ((typeOf_eq_some.2 hauth.1).symm.trans h)) (by decide)
  data _ hk := absurd (hkind.symm.trans hk) (by simp)
  unset _ hk := absurd (hkind.symm.trans hk) (by simp)
  silent h := absurd hauth h

/-- **One message** leads to what it should, unless it is refused. -/
theorem handle_spec (hj : lib.PrintsAll message) :
    (¬F.Refuses lib s message ∧ (F.handle lib s message).thrown = none ∧
      F.Responds lib s message (F.handle lib s message).outputs) ∨
    (F.Refuses lib s message ∧ (F.handle lib s message).thrown ≠ none ∧
      Stranded message (F.handle lib s message).outputs) := by
  rcases hkind : F.kindOf message with - | k
  · have hdata : ¬∃ k, F.kindOf message = some k ∧ s.isSet k = true ∧ ¬F.Readable k message := by
      rw [hkind]
      simp
    -- no data: only an authentication can be refused, when its replay cannot be encoded
    by_cases hauth : StockDataStream.Authenticated message
    · rw [handle_of_authenticated hauth]
      obtain ⟨payloads, hreplays, hready⟩ | ⟨hany, hprints, what, hready⟩ := markReady_spec lib s
      · rw [hready]
        refine Or.inl ⟨?_, rfl, responds_authenticated hauth hkind hreplays⟩
        rintro (h | ⟨-, hany, hprints⟩)
        · exact hdata h
        · rw [Replays, if_pos hany] at hreplays
          obtain ⟨payload, hdump, -⟩ := hreplays
          exact hprints ⟨payload, hdump⟩
      · rw [hready]
        exact Or.inr ⟨Or.inr ⟨hauth, hany, hprints⟩, by simp, Or.inl ⟨hauth, rfl⟩⟩
    · obtain ⟨hnone, hresponds⟩ := handle_control (s := s) hj hauth hkind
      refine Or.inl ⟨?_, hnone, hresponds⟩
      rintro (h | h)
      · exact hdata h
      · exact hauth h.1
  · -- data: nobody listens, or it is read, or it is refused
    have hauth := not_authenticated_of_kindOf hkind
    have hkind' : ∀ {k'}, F.kindOf message = some k' → k' = k := fun h ↦ Option.some.inj (h.symm.trans hkind)
    have hrefuses : F.Refuses lib s message ↔ s.isSet k = true ∧ ¬F.Readable k message := by
      refine ⟨?_, fun h ↦ Or.inl ⟨k, hkind, h⟩⟩
      rintro (⟨k', hk', h⟩ | h)
      · exact hkind' hk' ▸ h
      · exact absurd h.1 hauth
    rw [hrefuses]
    obtain ⟨hset, hhandle⟩ | ⟨hset, hreadable, m, hm, hhandle⟩ | ⟨hset, hreadable, what, hhandle⟩ :=
      handle_data (s := s) hj hkind
    · rw [hhandle]
      refine Or.inl ⟨fun h ↦ ?_, rfl, responds_data hkind (fun h ↦ ?_) fun _ ↦ rfl⟩
      · exact absurd (hset.symm.trans h.1) (by simp)
      · exact absurd (hset.symm.trans h) (by simp)
    · rw [hhandle]
      refine Or.inl ⟨fun h ↦ h.2 hreadable, rfl, responds_data hkind (fun _ ↦ ⟨m, hm, rfl⟩) fun h ↦ ?_⟩
      exact absurd (hset.symm.trans h) (by simp)
    · rw [hhandle]
      exact Or.inr ⟨⟨hset, hreadable⟩, by simp, Or.inr ⟨hauth, rfl⟩⟩

/-! ### Frames

A frame that does not parse is reported to the error handler and does nothing else. In one that does,
every message up to the first refused one is handled as if it were alone, and those behind it are lost. -/

variable (F lib) in
/-- **A frame handled as it should be**, as far as it can be read: malformed text is reported, and of the
messages every one in front of the first that is refused leads to what it leads to by itself, in the setting
it finds. -/
structure Handles (env : ℕ → FeedSetting F.Kind) (data : Bytes) (h : Handling M) : Prop where
  malformed : ∀ what, lib.parse data = .error what → h =
    ⟨if (env 0).onError then [.error ⟨0, bytes "malformed stream frame: " ++ what⟩] else [], none⟩
  handled : ∀ j, lib.parse data = .ok j → ∃ front rest parts last,
    ((StockDataStream.framePayloads j).mapIdx fun i message ↦ (env i, message)) = front ++ rest ∧
      h.outputs = List.flatten parts ++ last ∧
      List.Forall₂ (fun x part ↦ ¬F.Refuses lib x.1 x.2 ∧ F.Responds lib x.1 x.2 part) front parts ∧
      ((h.thrown = none ∧ rest = [] ∧ last = []) ∨
        (h.thrown ≠ none ∧ ∃ x ∈ rest.head?, F.Refuses lib x.1 x.2 ∧ Stranded x.2 last))

/-- The loop over the messages. -/
theorem handleAll_spec {messages : List (Json D)} (hmessages : ∀ message ∈ messages, lib.PrintsAll message)
    (env : ℕ → FeedSetting F.Kind) : ∃ front rest parts last,
      (messages.mapIdx fun i message ↦ (env i, message)) = front ++ rest ∧
      (handleAll (fun i ↦ F.handle lib (env i)) messages).outputs = List.flatten parts ++ last ∧
      List.Forall₂ (fun x part ↦ ¬F.Refuses lib x.1 x.2 ∧ F.Responds lib x.1 x.2 part) front parts ∧
      (((handleAll (fun i ↦ F.handle lib (env i)) messages).thrown = none ∧ rest = [] ∧ last = []) ∨
        ((handleAll (fun i ↦ F.handle lib (env i)) messages).thrown ≠ none ∧
          ∃ x ∈ rest.head?, F.Refuses lib x.1 x.2 ∧ Stranded x.2 last)) := by
  induction messages generalizing env with
  | nil => exact ⟨[], [], [], [], rfl, rfl, .nil, Or.inl ⟨rfl, rfl, rfl⟩⟩
  | cons message messages ih =>
    rw [List.forall_mem_cons] at hmessages
    rw [List.mapIdx_cons]
    obtain ⟨hrefuses, hnone, hresponds⟩ | ⟨hrefuses, hthrown, hlast⟩ := handle_spec (s := env 0) hmessages.1
    · obtain ⟨front, rest, parts, last, hsplit, houtputs, hparts, hend⟩ := ih hmessages.2 fun i ↦ env (i + 1)
      rw [handleAll_of_returns hnone, hsplit]
      refine ⟨(env 0, message) :: front, rest, _ :: parts, last, rfl, ?_, .cons ⟨hrefuses, hresponds⟩ hparts, hend⟩
      rw [List.flatten_cons, List.append_assoc, ← houtputs]
    · rw [handleAll_of_thrown hthrown]
      exact ⟨[], _, [], _, rfl, rfl, .nil, Or.inr ⟨hthrown, _, rfl, hrefuses, hlast⟩⟩

/-- **Every frame.** -/
theorem handles_handleFrame (hlib : lib.ParsedPrints) (env : ℕ → FeedSetting F.Kind) (data : Bytes) :
    F.Handles lib env data (F.handleFrame lib env data) where
  malformed what hparse := by
    rw [handleFrame, Alpaca.handleFrame, hparse]
    rfl
  handled j hparse := by
    rw [handleFrame, StockDataStream.handleFrame_of_parse _ _ hparse]
    refine handleAll_spec (fun message hmem p hp ↦ hlib data j p hparse ?_) env
    cases j with
    | arr messages => exact .elem hmem hp
    | _ => exact List.mem_singleton.1 hmem ▸ hp

/-! ### Sessions

An authentication in the middle of a session is nothing special: a server that authenticates twice is sent
the subscriptions twice. What is announced depends on the sets at that message, which the user may have
changed since the frame came in. -/

omit [DoubleCasts D] in
/-- What is sent goes out right behind an authentication, and is one of the `P`. The flag says that the
stream has just become ready. -/
def Announces (P : Bytes → Prop) : Bool → List (StreamOutput M) → Prop
  | _, [] => True
  | _, .ready :: rest => Announces P true rest
  | authenticated, .send payload :: rest => authenticated = true ∧ P payload ∧ Announces P false rest
  | _, _ :: rest => Announces P false rest

section Announcing

omit [DoubleCasts D]

variable {P : Bytes → Prop} {outputs outputs' : List (StreamOutput M)}

/-- Nothing needs an authentication that announces nothing. -/
theorem Announces.of_false {authenticated : Bool} (h : Announces P false outputs) :
    Announces P authenticated outputs := by
  rcases outputs with - | ⟨output, outputs⟩
  · exact trivial
  · cases output with
    | send payload => exact absurd h.1 (by simp)
    | _ => exact h

/-- What two parts send, one after the other. -/
theorem Announces.append {authenticated : Bool} (h : Announces P authenticated outputs)
    (h' : Announces P false outputs') : Announces P authenticated (outputs ++ outputs') := by
  induction outputs generalizing authenticated with
  | nil => exact h'.of_false
  | cons output outputs ih =>
    cases output with
    | send payload => exact ⟨h.1, h.2.1, ih h.2.2⟩
    | _ => exact ih h

/-- More may be sent than is. -/
theorem Announces.mono {P' : Bytes → Prop} {authenticated : Bool} (h : Announces P authenticated outputs)
    (hP : ∀ payload, P payload → P' payload) : Announces P' authenticated outputs := by
  induction outputs generalizing authenticated with
  | nil => exact trivial
  | cons output outputs ih =>
    cases output with
    | send payload => exact ⟨h.1, hP payload h.2.1, ih h.2.2⟩
    | _ => exact ih h

/-- What many parts send, one after the other. -/
theorem announces_flatten {parts : List (List (StreamOutput M))} (h : ∀ part ∈ parts, Announces P false part) :
    Announces P false parts.flatten := by
  induction parts with
  | nil => exact trivial
  | cons part parts ih =>
    rw [List.forall_mem_cons] at h
    exact h.1.append (ih h.2)

/-- What is neither an authentication nor sent. -/
theorem announces_single {c : Prop} [Decidable c] {output : StreamOutput M} (hready : output ≠ .ready)
    (hsend : ∀ payload, output ≠ .send payload) : Announces P false (if c then [output] else []) := by
  split
  · cases output with
    | ready => exact absurd rfl hready
    | send payload => exact absurd rfl (hsend payload)
    | _ => exact trivial
  · exact trivial

theorem Stranded.announces (h : Stranded message outputs) : Announces P false outputs := by
  obtain ⟨-, rfl⟩ | ⟨-, rfl⟩ := h <;> exact trivial

end Announcing

/-- One message announces. -/
theorem Responds.announces {P : Bytes → Prop} {outputs : List (StreamOutput M)}
    (h : F.Responds lib s message outputs) (hP : ∀ payload, Replays lib s.channels [payload] → P payload) :
    Announces P false outputs := by
  by_cases hauth : StockDataStream.Authenticated message
  · obtain ⟨payloads, hreplays, rfl⟩ := h.authenticated hauth
    have hconnected : Announces (M := M) P false (if s.onConnected then [.connected] else []) :=
      announces_single (by simp) (by simp)
    refine (show Announces P true _ from ?_)
    rcases payloads with - | ⟨payload, rest⟩
    · exact hconnected.of_false
    · obtain rfl : rest = [] := by
        rw [Replays] at hreplays
        split at hreplays
        · obtain ⟨text, -, heq⟩ := hreplays
          exact (List.cons.inj heq).2
        · exact absurd hreplays (by simp)
      exact ⟨rfl, hP payload hreplays, hconnected⟩
  · by_cases herror : typeOf message = some (bytes "error")
    · obtain ⟨e, -, rfl⟩ := h.error herror
      exact announces_single (by simp) (by simp)
    · by_cases hsubs : typeOf message = some (bytes "subscription")
      · obtain ⟨subs, -, rfl⟩ := h.subscription hsubs
        exact announces_single (by simp) (by simp)
      · rcases hkind : F.kindOf message with - | k
        · rw [h.silent hauth herror hsubs hkind]
          exact trivial
        · rcases hset : s.isSet k with - | -
          · rw [h.unset k hkind hset]
            exact trivial
          · obtain ⟨m, -, rfl⟩ := h.data k hkind hset
            exact trivial

variable (F lib) in
omit [DoubleCasts D] in
/-- **A session as it should be**: each frame is handled as far as it can be read; and what is sent
throughout is the subscriptions of the moment, right behind an authentication, and nothing else. -/
structure SessionSpec [DoubleCasts D] (handleFrame : (ℕ → FeedSetting F.Kind) → Bytes → Handling M)
    (env : ℕ → ℕ → FeedSetting F.Kind) (frames : List Bytes) : Prop where
  handled : ∀ i data, frames[i]? = some data → F.Handles lib (env i) data (handleFrame (env i) data)
  sent : Announces (fun payload ↦ ∃ i k, Replays lib (env i k).channels [payload]) false
    (frames.mapIdx fun i data ↦ (handleFrame (env i) data).outputs).flatten

/-- **Every session of a feed**, whatever frames come in, and however the handlers and the subscriptions
change between the messages. -/
theorem sessionSpec_handleFrame (hlib : lib.ParsedPrints) (env : ℕ → ℕ → FeedSetting F.Kind) (frames : List Bytes) :
    F.SessionSpec lib (F.handleFrame lib) env frames where
  handled i data _ := handles_handleFrame hlib (env i) data
  sent := by
    refine announces_flatten fun part hpart ↦ ?_
    obtain ⟨i, hi, rfl⟩ := List.mem_mapIdx.1 hpart
    generalize frames[i] = data
    have h := handles_handleFrame hlib (env i) data
    rcases hparse : lib.parse data with what | j
    · rw [h.malformed what hparse]
      exact announces_single (by simp) (by simp)
    · obtain ⟨front, rest, parts, last, hsplit, houtputs, hparts, hend⟩ := h.handled j hparse
      rw [houtputs]
      refine Announces.append (announces_flatten fun part hpart ↦ ?_) ?_
      · obtain ⟨x, hx, -, hresponds⟩ := exists_mem_left hparts hpart
        obtain ⟨k, hk, rfl⟩ := List.mem_mapIdx.1 (hsplit ▸ List.mem_append_left rest hx)
        exact hresponds.announces fun payload hreplays ↦ ⟨i, k, hreplays⟩
      · obtain ⟨-, -, rfl⟩ | ⟨-, x, -, -, hlast⟩ := hend
        · exact trivial
        · exact hlast.announces

end Handling

end Feed

/-! ### The streams

The three feeds. The stock feed has its own module for the messages; crypto and news have fewer types, and
the payload of the news stream is the article that the REST call returns. -/

namespace StockDataStream

variable [Doubles D]

/-- The feed of a stock stream. -/
def feed : Feed D (StockMessage D) where
  Kind := StockType
  ofBytes := StockType.ofBytes
  symbolOf := Alpaca.symbolOf
  read lib k j := k.read lib j
  Readable k j := k.Readable j
  ofBytes_control := by decide
  exists_read_iff _ k _ hj := StockType.exists_read_iff hj.self k

/-- The setting of a stock stream. -/
def settingOf (s : FeedSetting StockType) : StreamSetting := { s.toStreamSetting with isSet := s.isSet }

/-- The stock stream of `HandleFrame` is the stock feed. -/
theorem handleFrame_eq (lib : JsonLibrary D) (env : ℕ → FeedSetting StockType) (data : Bytes) :
    handleFrame lib (fun i ↦ settingOf (env i)) data = feed.handleFrame lib env data := by
  have hdispatch : ∀ s, dispatch lib (settingOf s) = feed.dispatch lib s := by
    intro s
    funext type message
    rw [dispatch]
    rcases h : StockType.ofBytes type with - | k
    · exact (Feed.dispatch_of_none (F := (feed : Feed D (StockMessage D))) h).symm
    · refine Eq.trans ?_ (Feed.dispatch_of_some (F := (feed : Feed D (StockMessage D))) h).symm
      change deliver lib (settingOf s) k message = _
      rw [deliver]
      rcases hset : s.isSet k with - | -
      · exact (if_neg (by simp [settingOf, hset])).trans (Feed.deliver_of_unset hset).symm
      · refine (if_pos hset).trans ?_
        rcases hread : k.read lib message with what | m
        · exact (Feed.deliver_of_error (F := (feed : Feed D (StockMessage D))) hset hread).symm
        · exact (Feed.deliver_of_ok (F := (feed : Feed D (StockMessage D))) hset hread).symm
  have hhandle : ∀ s message, handle lib (settingOf s) message = feed.handle lib s message := by
    intro s message
    rw [handle, hdispatch]
    rfl
  change Alpaca.handleFrame lib (fun i ↦ handle lib (settingOf (env i))) _ data =
    Alpaca.handleFrame lib (fun i ↦ feed.handle lib (env i)) _ data
  rw [funext fun i ↦ funext (hhandle (env i))]
  rfl

end StockDataStream

/-- What a crypto stream delivers. -/
inductive CryptoType where
  | trade | quote | bar | updatedBar | dailyBar | orderbook
  deriving DecidableEq

/-- A payload, as its handler receives it. -/
inductive CryptoMessage (D : Type) where
  | trade (t : Trade D)
  | quote (q : Quote D)
  | bar (b : Bar D)
  | updatedBar (b : Bar D)
  | dailyBar (b : Bar D)
  | orderbook (o : Orderbook D)
  deriving DecidableEq

namespace CryptoType

/-- The switch of `crypto_data_stream::dispatch`. -/
def ofBytes (type : Bytes) : Option CryptoType :=
  match type with
  | [c] =>
    if c = byte 't' then some .trade
    else if c = byte 'q' then some .quote
    else if c = byte 'b' then some .bar
    else if c = byte 'u' then some .updatedBar
    else if c = byte 'd' then some .dailyBar
    else if c = byte 'o' then some .orderbook
    else none
  | _ => none

/-- The `from_json` of a type, on a default value. -/
def read [Doubles D] (lib : JsonLibrary D) (j : Json D) : CryptoType → Except Bytes (CryptoMessage D)
  | trade => (Trade.fromJson lib j .empty).map .trade
  | quote => (Quote.fromJson lib j .empty).map .quote
  | bar => (Bar.fromJson lib j .empty).map .bar
  | updatedBar => (Bar.fromJson lib j .empty).map .updatedBar
  | dailyBar => (Bar.fromJson lib j .empty).map .dailyBar
  | orderbook => (Orderbook.fromJson lib j {}).map .orderbook

/-- What a payload must hold to be read. -/
def Readable (j : Json D) : CryptoType → Prop
  | trade | quote => j.Dated (bytes "t") ∧ j.TextConditions
  | bar | updatedBar | dailyBar | orderbook => j.Dated (bytes "t")

/-- **A crypto payload is read** exactly when it is readable. -/
theorem exists_read_iff [Doubles D] {lib : JsonLibrary D} {j : Json D} (hj : lib.PrintsAll j) (type : CryptoType) :
    (∃ m, type.read lib j = .ok m) ↔ type.Readable j := by
  cases type with
  | trade => exact exists_map_eq_ok.trans (Trade.returnsIff_fromJson hj.self _)
  | quote => exact exists_map_eq_ok.trans (Quote.returnsIff_fromJson hj.self _)
  | bar | updatedBar | dailyBar => exact exists_map_eq_ok.trans (Bar.returnsIff_fromJson hj.self _)
  | orderbook => exact exists_map_eq_ok.trans (Orderbook.returnsIff_fromJson hj _)

end CryptoType

namespace CryptoDataStream

variable [Doubles D]

/-- The feed of a crypto stream. -/
def feed : Feed D (CryptoMessage D) where
  Kind := CryptoType
  ofBytes := CryptoType.ofBytes
  symbolOf := Alpaca.symbolOf
  read lib k j := k.read lib j
  Readable k j := k.Readable j
  ofBytes_control := by decide
  exists_read_iff _ k _ hj := CryptoType.exists_read_iff hj k

/-- `dispatch` -/
def dispatch (lib : JsonLibrary D) : FeedSetting CryptoType → Bytes → Json D → Handling (CryptoMessage D) :=
  feed.dispatch lib

/-- `handle_frame` of a crypto stream. -/
def handleFrame (lib : JsonLibrary D) : (ℕ → FeedSetting CryptoType) → Bytes → Handling (CryptoMessage D) :=
  feed.handleFrame lib

end CryptoDataStream

namespace NewsStream

variable [Doubles D]

/-- The feed of a news stream. Its handler gets the article alone. -/
def feed : Feed D NewsArticle where
  Kind := Unit
  ofBytes type := if type = bytes "n" then some () else none
  symbolOf _ := []
  read lib _ j := NewsArticle.fromJson lib j {}
  Readable _ j := j.Dated (bytes "created_at") ∧ j.Dated (bytes "updated_at")
  ofBytes_control := by decide
  exists_read_iff _ _ _ hj := NewsArticle.returnsIff_fromJson hj _

/-- `dispatch` -/
def dispatch (lib : JsonLibrary D) : FeedSetting Unit → Bytes → Json D → Handling NewsArticle :=
  feed.dispatch lib

/-- `handle_frame` of a news stream. -/
def handleFrame (lib : JsonLibrary D) : (ℕ → FeedSetting Unit) → Bytes → Handling NewsArticle :=
  feed.handleFrame lib

end NewsStream

/-- **Every session of every data stream.** Whatever frames come in, and however the handlers and the
subscriptions change between the messages: of each frame every message in front of the first that is refused
leads to what it should, once and in order; and nothing is sent but the subscriptions of the moment, right
behind an authentication. -/
theorem dataStreams_sessions [Doubles D] {lib : JsonLibrary D} (hlib : lib.ParsedPrints) (frames : List Bytes) :
    (∀ env, StockDataStream.feed.SessionSpec lib
      (fun env ↦ StockDataStream.handleFrame lib fun i ↦ StockDataStream.settingOf (env i)) env frames) ∧
    (∀ env, CryptoDataStream.feed.SessionSpec lib (CryptoDataStream.handleFrame lib) env frames) ∧
    ∀ env, NewsStream.feed.SessionSpec lib (NewsStream.handleFrame lib) env frames := by
  have hstock : (fun env : ℕ → FeedSetting StockType ↦ StockDataStream.handleFrame lib
      fun i ↦ StockDataStream.settingOf (env i)) = StockDataStream.feed.handleFrame lib :=
    funext₂ (StockDataStream.handleFrame_eq lib)
  refine ⟨fun env ↦ ?_, fun env ↦ Feed.sessionSpec_handleFrame hlib env frames,
    fun env ↦ Feed.sessionSpec_handleFrame hlib env frames⟩
  exact (congrArg (fun f ↦ StockDataStream.feed.SessionSpec lib f env frames) hstock).mpr
    (Feed.sessionSpec_handleFrame hlib env frames)

/-- The acknowledgement of the credentials. -/
def authenticatedMessage : Json ℚ := .obj [
  (bytes "T", .str (bytes "success")), (bytes "msg", .str (bytes "authenticated"))]

/-- A book of `A` with one bid, in front of one whose timestamp is a number. -/
def bookMessages : Json ℚ := .arr [
  .obj [(bytes "S", .str (bytes "A")), (bytes "T", .str (bytes "o")), (bytes "b", .arr [.obj [(bytes "p", .int 2)]])],
  .obj [(bytes "S", .str (bytes "A")), (bytes "T", .str (bytes "o")), (bytes "t", .int 5)]]

/-- The JSON library on these two frames. -/
def booksJson : JsonLibrary ℚ where
  parse text :=
    if text = StockDataStream.plainText authenticatedMessage then .ok authenticatedMessage
    else if text = StockDataStream.plainText bookMessages then .ok bookMessages
    else .error (bytes "syntax error")
  dump j := .ok (StockDataStream.plainText j)

/-- A crypto stream with every handler set, that wants the books of `A`. -/
def booksSetting : FeedSetting CryptoType where
  isSet _ := true
  onError := true
  onSubscription := true
  onConnected := true
  channels := [(bytes "orderbooks", [bytes "A"])]

/-- A session in which the two come in: the second book is refused. -/
theorem dataStreams_sessions_book :
    let frames := [StockDataStream.plainText authenticatedMessage, StockDataStream.plainText bookMessages]
    (frames.map fun data ↦ CryptoDataStream.handleFrame booksJson (fun _ ↦ booksSetting) data) =
      [⟨[.ready, .send (StockDataStream.plainText
          (subscriptionFrame (bytes "subscribe") [(bytes "orderbooks", [bytes "A"])])), .connected], none⟩,
        ⟨[.message (bytes "A") (.orderbook { bids := [{ price := 2, size := 0 }] })],
          some (bytes "type must be string")⟩] ∧
      CryptoDataStream.feed.SessionSpec booksJson (CryptoDataStream.handleFrame booksJson) (fun _ _ ↦ booksSetting)
        frames :=
  ⟨by decide +kernel, (dataStreams_sessions (fun _ _ k _ _ ↦ ⟨StockDataStream.plainText k, rfl⟩) _).2.1 _⟩

end Alpaca
