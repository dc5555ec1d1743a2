import AlpacaCpp.Streaming.StreamMessages

/-!
# From a frame to the handlers

`stream_base::handle_frame`, `data_stream_base::handle_payload` and `stock_data_stream::dispatch`. Only
`json::parse` is in a `try` block: what a `from_json` throws leaves `handle_frame`, and with it the rest
of the frame.

User handlers do not throw here, but they may do anything else: attach and detach handlers, subscribe
and unsubscribe. So the stream around the service thread may be another one at every message of a frame.

`thrown_handle_eq_none_iff` says for one message what throws, `handleAll_spec` for an array that
without an exception every message gets what it would get alone. Together they say **exactly when a frame
is handled as it should be** (`handles_iff`).

A `Handling` is what comes of a message: calls of handlers and payloads sent, in order, and perhaps an
exception behind them. Two of them one after the other are put together by the loop over an array, which
stops at the first exception (`handleAll_of_returns`, `handleAll_of_thrown`); this is used by every
stream.

The text of an exception is kept, though nothing here depends on it: two handlings are equal only if they
throw the same. What `what()` says comes from the library where the library throws.
-/

namespace Alpaca

/-! ### The stream around a message

A setting is what the code reads of the stream while it handles one message: which handlers are attached,
and what the symbols are. It is an argument of each message and not of the frame, because a handler may
change it. -/

/-- What the service thread finds when it handles a message. -/
structure StreamSetting where
  /-- Which data handlers are set. -/
  isSet : StockType → Bool
  onError : Bool
  onSubscription : Bool
  onConnected : Bool
  /-- `channels_`, in order. -/
  channels : List (Bytes × List Bytes)

/-- What handling a message does. -/
inductive StreamOutput (M : Type) where
  /-- A data handler, with the symbol and the payload. -/
  | message (symbol : Bytes) (m : M)
  /-- `on_error_` -/
  | error (e : StreamError)
  /-- `on_subscription_` -/
  | subscription (s : Subscriptions)
  /-- The state becomes `ready`. -/
  | ready
  | send (payload : Bytes)
  /-- `on_connected_` -/
  | connected
  deriving DecidableEq

/-- What handling has done, and the exception that ended it. -/
structure Handling (M : Type) where
  outputs : List (StreamOutput M)
  thrown : Option Bytes
  deriving DecidableEq

section Base

variable {D M : Type}

/-- `report_error`, as the user sees it. -/
def reportError (s : StreamSetting) (e : StreamError) : Handling M :=
  ⟨if s.onError then [.error e] else [], none⟩

/-- `build_frame` -/
def subscriptionFrame (action : Bytes) (channels : List (Bytes × List Bytes)) : Json D :=
  channels.foldl (fun frame c ↦ frame.setIf (c.2 ≠ []) c.1 (.arr (c.2.map .str)))
    ((Json.obj []).set (bytes "action") (.str action))

/-- `mark_ready`, with `on_ready` in it. -/
def markReady (encode : Json D → Except Bytes Bytes) (s : StreamSetting) : Handling M :=
  let connected := if s.onConnected then [StreamOutput.connected] else []
  if ∃ c ∈ s.channels, c.2 ≠ [] then
    match encode (subscriptionFrame (bytes "subscribe") s.channels) with
    | .ok payload => ⟨.ready :: .send payload :: connected, none⟩
    | .error what => ⟨[.ready], some what⟩
  else ⟨.ready :: connected, none⟩

/-- `symbol_of` -/
def symbolOf (j : Json D) : Bytes :=
  match j.member? (bytes "S") with
  | some (.str s) => s
  | _ => []

/-- `handle_payload`, for what `dispatch` and `encode` are in the derived class. -/
def handlePayload [DoubleCasts D] (lib : JsonLibrary D) (encode : Json D → Except Bytes Bytes)
    (dispatch : Bytes → Json D → Handling M) (s : StreamSetting) (payload : Json D) : Handling M :=
  match payload.member? (bytes "T") with
  | some (.str type) =>
    if type = bytes "success" then
      match payload.member? (bytes "msg") with
      | some (.str msg) => if msg = bytes "authenticated" then markReady encode s else ⟨[], none⟩
      | _ => ⟨[], none⟩
    else if type = bytes "error" then
      match StreamError.fromJson lib payload {} with
      | .ok e => reportError s e
      | .error what => ⟨[], some what⟩
    else if type = bytes "subscription" then
      if s.onSubscription then
        match Subscriptions.fromJson lib payload {} with
        | .ok subs => ⟨[.subscription subs], none⟩
        | .error what => ⟨[], some what⟩
      else ⟨[], none⟩
    else dispatch type payload
  | _ => ⟨[], none⟩

/-- The loop over an array. The function may depend on the place of the message. -/
def handleAll (handle : ℕ → Json D → Handling M) : List (Json D) → Handling M
  | [] => ⟨[], none⟩
  | message :: rest =>
    match handle 0 message with
    | ⟨outputs, some what⟩ => ⟨outputs, some what⟩
    | ⟨outputs, none⟩ =>
      let h := handleAll (fun i ↦ handle (i + 1)) rest
      ⟨outputs ++ h.outputs, h.thrown⟩

/-- `handle_frame` -/
def handleFrame (lib : JsonLibrary D) (handle : ℕ → Json D → Handling M) (s : StreamSetting)
    (data : Bytes) : Handling M :=
  match lib.parse data with
  | .error what => reportError s ⟨0, bytes "malformed stream frame: " ++ what⟩
  | .ok (.arr messages) => handleAll handle messages
  | .ok message => handle 0 message

section Control

variable [DoubleCasts D] {lib : JsonLibrary D} {encode : Json D → Except Bytes Bytes}
  {dispatch : Bytes → Json D → Handling M} {s : StreamSetting} {payload : Json D}

/-- The branch of `success`: an authentication, or nothing. -/
theorem handlePayload_success (h : payload.member? (bytes "T") = some (.str (bytes "success"))) :
    handlePayload lib encode dispatch s payload =
      if (payload.variableAt (bytes "msg") Json.getString).getD [] = bytes "authenticated" then
        markReady encode s
      else ⟨[], none⟩ := by
  rw [handlePayload, h, Json.variableAt]
  rcases payload.member? (bytes "msg") with - | (- | - | - | - | msg | - | -) <;> rfl

/-- The branch of `error`. -/
theorem handlePayload_error (h : payload.member? (bytes "T") = some (.str (bytes "error"))) :
    handlePayload lib encode dispatch s payload =
      match StreamError.fromJson lib payload {} with
      | .ok e => reportError s e
      | .error what => ⟨[], some what⟩ := by
  rw [handlePayload, h]
  rfl

/-- The branch of `subscription`, which is read only for a handler. -/
theorem handlePayload_subscription
    (h : payload.member? (bytes "T") = some (.str (bytes "subscription"))) :
    handlePayload lib encode dispatch s payload =
      if s.onSubscription then
        match Subscriptions.fromJson lib payload {} with
        | .ok subs => ⟨[.subscription subs], none⟩
        | .error what => ⟨[], some what⟩
      else ⟨[], none⟩ := by
  rw [handlePayload, h]
  rfl

end Control

end Base

/-- What stands on the right stands for something on the left. -/
theorem exists_mem_left {α β : Type} {R : α → β → Prop} {as : List α} {bs : List β} (h : List.Forall₂ R as bs)
    {b : β} (hb : b ∈ bs) : ∃ a ∈ as, R a b := by
  induction h with
  | nil => exact absurd hb List.not_mem_nil
  | cons hab _ ih =>
    rcases List.mem_cons.1 hb with rfl | hb
    · exact ⟨_, List.mem_cons_self, hab⟩
    · obtain ⟨a, ha, hr⟩ := ih hb
      exact ⟨a, List.mem_cons_of_mem _ ha, hr⟩

/-! ### The loop over an array

The loop adds up the handlings and stops behind the first exception. All that is proved of it is how it
splits: in front of an exception everything is as if the messages had come in frames of their own. -/

/-- An exception ends the loop. -/
theorem handleAll_of_thrown {D M : Type} {handle : ℕ → Json D → Handling M} {message : Json D}
    {rest : List (Json D)} (h : (handle 0 message).thrown ≠ none) :
    handleAll handle (message :: rest) = handle 0 message := by
  rw [handleAll]
  rcases hm : handle 0 message with ⟨outputs, - | what⟩
  · rw [hm] at h
    exact absurd rfl h
  · rfl

/-- Otherwise it goes on. -/
theorem handleAll_of_returns {D M : Type} {handle : ℕ → Json D → Handling M} {message : Json D}
    {rest : List (Json D)} (h : (handle 0 message).thrown = none) :
    handleAll handle (message :: rest) =
      ⟨(handle 0 message).outputs ++ (handleAll (fun i ↦ handle (i + 1)) rest).outputs,
        (handleAll (fun i ↦ handle (i + 1)) rest).thrown⟩ := by
  rw [handleAll]
  rcases hm : handle 0 message with ⟨outputs, - | what⟩
  · rfl
  · rw [hm] at h
    exact absurd h (by simp)

/-- An array whose messages do not throw, or that ends with an exception. -/
theorem handleAll_spec {D M : Type} (handle : ℕ → Json D → Handling M) (messages : List (Json D)) :
    ((handleAll handle messages).thrown = none ↔
      ∀ i message, messages[i]? = some message → (handle i message).thrown = none) ∧
    ((handleAll handle messages).thrown = none → (handleAll handle messages).outputs =
      (messages.mapIdx fun i message ↦ (handle i message).outputs).flatten) := by
  induction messages generalizing handle with
  | nil => exact ⟨iff_of_true rfl (by simp), fun _ ↦ rfl⟩
  | cons message rest ih =>
    obtain ⟨hthrown, houtputs⟩ := ih fun i ↦ handle (i + 1)
    have hall : (∀ i m, (message :: rest)[i]? = some m → (handle i m).thrown = none) ↔
        (handle 0 message).thrown = none ∧
          ∀ i m, rest[i]? = some m → (handle (i + 1) m).thrown = none := by
      constructor
      · exact fun h ↦ ⟨h 0 message rfl, fun i m hm ↦ h (i + 1) m hm⟩
      · rintro ⟨h0, hrest⟩ (- | i) m hm
        · exact Option.some_inj.1 hm ▸ h0
        · exact hrest i m hm
    rw [hall, List.mapIdx_cons, List.flatten_cons, ← hthrown]
    -- the first message decides whether the others are looked at
    by_cases hnone : (handle 0 message).thrown = none
    · rw [handleAll_of_returns hnone]
      simp only [hnone, true_and, List.append_cancel_left_eq]
      exact houtputs
    · rw [handleAll_of_thrown hnone]
      exact ⟨iff_of_false hnone fun h ↦ hnone h.1, fun h ↦ absurd h hnone⟩

/-- A single message, as an array of one. -/
theorem handleAll_singleton {D M : Type} (handle : ℕ → Json D → Handling M) (message : Json D) :
    handleAll handle [message] = handle 0 message := by
  rw [handleAll]
  rcases handle 0 message with ⟨outputs, - | what⟩ <;> simp [handleAll]

/-! ### Stock streams

`dispatch` for the ten types of the stock stream. A type without a handler is not read at all, so that a
payload nobody listens to cannot throw. -/

namespace StockDataStream

variable {D : Type} [Doubles D] (lib : JsonLibrary D)

/-- `deliver` -/
def deliver (s : StreamSetting) (type : StockType) (message : Json D) : Handling (StockMessage D) :=
  if s.isSet type then
    match type.read lib message with
    | .ok m => ⟨[.message (symbolOf message) m], none⟩
    | .error what => ⟨[], some what⟩
  else ⟨[], none⟩

/-- `dispatch` -/
def dispatch (s : StreamSetting) (type : Bytes) (message : Json D) : Handling (StockMessage D) :=
  match StockType.ofBytes type with
  | some t => deliver lib s t message
  | none => ⟨[], none⟩

/-- `handle_payload` of a stock stream, whose frames are JSON text. -/
def handle (s : StreamSetting) (payload : Json D) : Handling (StockMessage D) :=
  handlePayload lib lib.dump (dispatch lib s) s payload

/-- `handle_frame` of a stock stream, in whatever state each message finds it. -/
def handleFrame (env : ℕ → StreamSetting) (data : Bytes) : Handling (StockMessage D) :=
  Alpaca.handleFrame lib (fun i ↦ handle lib (env i)) (env 0) data

/-! ### One message

The type under `T` decides. A control message throws in one case, an authentication whose replay cannot be
encoded; a payload throws if it has a handler and cannot be read; anything else is skipped. -/

omit [Doubles D] in
/-- The type of a data message. -/
def dataType (message : Json D) : Option StockType :=
  match message.member? (bytes "T") with
  | some (.str type) => StockType.ofBytes type
  | _ => none

/-- The second success of a session. -/
def Authenticated (message : Json D) : Prop :=
  message.member? (bytes "T") = some (.str (bytes "success")) ∧
    message.member? (bytes "msg") = some (.str (bytes "authenticated"))

/-- A message that cannot be handled: a payload for a handler that is set, whose timestamp is neither
null nor a string or whose conditions are not all strings; or the authentication of a stream whose
subscriptions cannot be printed. -/
def Refuses (s : StreamSetting) (message : Json D) : Prop :=
  (∃ type, dataType message = some type ∧ s.isSet type = true ∧ ¬type.Readable message) ∨
    (Authenticated message ∧ (∃ c ∈ s.channels, c.2 ≠ []) ∧
      ¬lib.Prints (subscriptionFrame (bytes "subscribe") s.channels))

variable {lib}

omit [Doubles D] in
/-- A message of data has a type the stream knows. -/
theorem dataType_eq_some {message : Json D} {type : StockType} (h : dataType message = some type) :
    ∃ t, message.member? (bytes "T") = some (.str t) ∧ StockType.ofBytes t = some type := by
  rw [dataType] at h
  split at h
  · exact ⟨_, ‹_›, h⟩
  · exact absurd h (by simp)

/-- Data messages are dispatched. -/
theorem handle_of_dataType {message : Json D} {type : StockType} (h : dataType message = some type)
    (s : StreamSetting) : handle lib s message = deliver lib s type message := by
  obtain ⟨t, ht, htype⟩ := dataType_eq_some h
  have hne : ∀ name : String, StockType.ofBytes (bytes name) = none → t ≠ bytes name := by
    rintro name hnone rfl
    exact absurd (hnone.symm.trans htype) (by simp)
  rw [handle, handlePayload, ht]
  dsimp only
  rw [if_neg (hne "success" rfl), if_neg (hne "error" rfl), if_neg (hne "subscription" rfl), dispatch,
    htype]

/-- **Data throws** when somebody listens and it cannot be read. -/
theorem thrown_deliver_eq_none_iff {s : StreamSetting} {type : StockType} {message : Json D}
    (hj : lib.Prints message) :
    (deliver lib s type message).thrown = none ↔ ¬(s.isSet type = true ∧ ¬type.Readable message) := by
  rw [deliver, ← StockType.exists_read_iff hj]
  rcases s.isSet type with - | -
  · simp
  · rcases type.read lib message with what | m <;> simp

omit [Doubles D] in
/-- `mark_ready` throws when there is a replay that cannot be printed. -/
theorem thrown_markReady_eq_none_iff {M : Type} (s : StreamSetting) :
    (markReady lib.dump s : Handling M).thrown = none ↔ ¬((∃ c ∈ s.channels, c.2 ≠ []) ∧
      ¬lib.Prints (subscriptionFrame (bytes "subscribe") s.channels)) := by
  rw [markReady, JsonLibrary.Prints]
  split
  · rename_i hany
    rcases lib.dump (subscriptionFrame (bytes "subscribe") s.channels) with what | payload <;>
      simp [hany]
  · rename_i hnone
    simp [hnone]

omit [Doubles D] in
theorem dataType_of_authenticated {message : Json D} (h : Authenticated message) :
    dataType message = none := by
  rw [dataType, h.1]
  rfl

/-- Control messages only throw when the subscriptions cannot be replayed. -/
theorem thrown_handle_of_control {s : StreamSetting} {message : Json D} (hj : lib.Prints message)
    (h : dataType message = none) : (handle lib s message).thrown = none ↔
      ¬(Authenticated message ∧ (∃ c ∈ s.channels, c.2 ≠ []) ∧
        ¬lib.Prints (subscriptionFrame (bytes "subscribe") s.channels)) := by
  rw [dataType] at h
  rw [handle, handlePayload, Authenticated]
  generalize message.member? (bytes "T") = found at h ⊢
  rcases found with - | (- | - | - | - | t | - | -)
  case some.str =>
    dsimp only at h ⊢
    split_ifs with hsuccess herror hsubscription hset
    · rcases message.member? (bytes "msg") with - | (- | - | - | - | msg | - | -)
      case some.str =>
        dsimp only
        split_ifs with hmsg
        · rw [hsuccess, hmsg, thrown_markReady_eq_none_iff]
          simp
        · simp [hmsg]
      all_goals simp
    · obtain ⟨e, he⟩ := StreamError.total_fromJson hj {}
      simp [he, hsuccess, reportError]
    · obtain ⟨subs, hsubs⟩ := Subscriptions.total_fromJson hj {}
      simp [hsubs, hsuccess]
    · simp [hsuccess]
    · simp [dispatch, h, hsuccess]
  all_goals simp

/-- **One message**: the only things that throw. -/
theorem thrown_handle_eq_none_iff {s : StreamSetting} {message : Json D} (hj : lib.Prints message) :
    (handle lib s message).thrown = none ↔ ¬Refuses lib s message := by
  rw [Refuses]
  rcases hdata : dataType message with - | type
  · rw [thrown_handle_of_control hj hdata]
    simp
  · have hauth : ¬Authenticated message := fun h ↦
      absurd ((dataType_of_authenticated h).symm.trans hdata) (by simp)
    rw [handle_of_dataType hdata, thrown_deliver_eq_none_iff hj]
    simp [hauth]

/-! ### A whole frame

`Handles` is what a reader of the documentation expects of a frame: every message of it gets what it would
get alone. The code does this exactly when no message of the frame is refused. -/

omit [Doubles D] in
/-- The messages of a frame: the elements of an array, or the one value there is. -/
def framePayloads : Json D → List (Json D)
  | .arr messages => messages
  | message => [message]

/-- A message, handed as it should be to the handler of its type, when that is set. -/
structure Handed (lib : JsonLibrary D) (s : StreamSetting) (message : Json D)
    (outputs : List (StreamOutput (StockMessage D))) : Prop where
  data : ∀ type, dataType message = some type → type.WellTyped message → s.isSet type = true →
    ∃ m, type.read lib message = .ok m ∧ outputs = [.message (symbolOf message) m]
  error : message.member? (bytes "T") = some (.str (bytes "error")) → s.onError = true →
    ∃ e, StreamError.fromJson lib message {} = .ok e ∧ outputs = [.error e]
  subscription : message.member? (bytes "T") = some (.str (bytes "subscription")) →
    s.onSubscription = true →
    ∃ subs, Subscriptions.fromJson lib message {} = .ok subs ∧ outputs = [.subscription subs]

/-- **A frame handled as it should be**: no exception, malformed text reported, and the messages handed
to their handlers once each and in order, whatever else is in the frame. -/
structure Handles (lib : JsonLibrary D) (env : ℕ → StreamSetting) (data : Bytes)
    (h : Handling (StockMessage D)) : Prop where
  returns : h.thrown = none
  malformed : ∀ what, lib.parse data = .error what → (env 0).onError = true →
    h.outputs = [.error ⟨0, bytes "malformed stream frame: " ++ what⟩]
  handed : ∀ j, lib.parse data = .ok j → ∃ parts : List (List (StreamOutput (StockMessage D))),
    h.outputs = parts.flatten ∧ parts.length = (framePayloads j).length ∧
      ∀ i message part, (framePayloads j)[i]? = some message → parts[i]? = some part →
        Handed lib (env i) message part

omit [Doubles D] in
/-- A frame that parses, as the array of its messages. -/
theorem handleFrame_of_parse {M : Type} (handle : ℕ → Json D → Handling M) (s : StreamSetting)
    {data : Bytes} {j : Json D} (h : lib.parse data = .ok j) :
    Alpaca.handleFrame lib handle s data = handleAll handle (framePayloads j) := by
  rw [Alpaca.handleFrame, h]
  cases j with
  | arr messages => rfl
  | _ => exact (handleAll_singleton handle _).symm

omit [Doubles D] in
/-- The messages of a frame are parts of what was parsed, so they can be printed. -/
theorem prints_of_mem_framePayloads (hlib : lib.ParsedPrints) {data : Bytes} {j message : Json D}
    (hparse : lib.parse data = .ok j) (hmem : message ∈ framePayloads j) : lib.Prints message := by
  refine hlib data j message hparse ?_
  cases j with
  | arr messages => exact .elem hmem (.self message)
  | _ => exact List.mem_singleton.1 hmem ▸ .self _

/-- Each message is handed as it should be, by itself. -/
theorem handed_handle {s : StreamSetting} {message : Json D} (hj : lib.Prints message) :
    Handed lib s message (handle lib s message).outputs where
  data := by
    intro type htype hwell hset
    obtain ⟨m, hm⟩ := (StockType.exists_read_iff hj type).2 hwell.readable
    refine ⟨m, hm, ?_⟩
    rw [handle_of_dataType htype, deliver, if_pos hset, hm]
  error := by
    intro htype hset
    obtain ⟨e, he⟩ := StreamError.total_fromJson hj {}
    refine ⟨e, he, ?_⟩
    rw [handle, handlePayload_error htype, he]
    exact if_pos hset
  subscription := by
    intro htype hset
    obtain ⟨subs, hsubs⟩ := Subscriptions.total_fromJson hj {}
    refine ⟨subs, hsubs, ?_⟩
    rw [handle, handlePayload_subscription htype, if_pos hset, hsubs]

/-- **Exactly when a frame is handled as it should be**: when none of its messages is one that cannot be
handled. -/
theorem handles_iff (hlib : lib.ParsedPrints) (env : ℕ → StreamSetting) (data : Bytes) :
    Handles lib env data (handleFrame lib env data) ↔
      ∀ j i message, lib.parse data = .ok j → (framePayloads j)[i]? = some message →
        ¬Refuses lib (env i) message := by
  rcases hparse : lib.parse data with what | j
  · have hreport : handleFrame lib env data =
        reportError (env 0) ⟨0, bytes "malformed stream frame: " ++ what⟩ := by
      rw [handleFrame, Alpaca.handleFrame, hparse]
    refine iff_of_true ⟨by rw [hreport]; rfl, fun what' h hset ↦ ?_, fun j h ↦ ?_⟩ (by simp)
    · rw [hreport, reportError, if_pos hset, ← Except.error.inj (hparse.symm.trans h)]
    · exact absurd (hparse.symm.trans h) (by simp)
  · have hprints : ∀ {i : ℕ} {message}, (framePayloads j)[i]? = some message → lib.Prints message :=
      fun hi ↦ prints_of_mem_framePayloads hlib hparse (List.mem_of_getElem? hi)
    obtain ⟨hthrown, houtputs⟩ := handleAll_spec (fun i ↦ handle lib (env i)) (framePayloads j)
    rw [← handleFrame_of_parse _ (env 0) hparse, ← handleFrame] at hthrown houtputs
    have hreturns : (handleFrame lib env data).thrown = none ↔ ∀ i message,
        (framePayloads j)[i]? = some message → ¬Refuses lib (env i) message := by
      rw [hthrown]
      exact forall₂_congr fun i message ↦ imp_congr_right fun hi ↦
        thrown_handle_eq_none_iff (hprints hi)
    constructor
    · intro h j' i message hj' hi
      obtain rfl := Except.ok.inj hj'
      exact hreturns.1 h.returns i message hi
    · intro h
      have hnone := hreturns.2 fun i message hi ↦ h j i message rfl hi
      refine ⟨hnone, fun what hwhat ↦ absurd (hparse.symm.trans hwhat) (by simp), fun j' hj' ↦ ?_⟩
      obtain rfl := Except.ok.inj (hparse.symm.trans hj')
      refine ⟨_, houtputs hnone, List.length_mapIdx, fun i message part hi hpart ↦ ?_⟩
      rw [List.getElem?_mapIdx, hi] at hpart
      exact Option.some_inj.1 hpart ▸ handed_handle (hprints hi)

/-! ### A batch lost

The failing frame holds two trades, of which the first has a number as its timestamp. The second, which is
well formed, is not delivered. -/

mutual

/-- Printing, for values without fractions and without text that needs escapes. -/
def plainText : Json ℚ → Bytes
  | .null => bytes "null"
  | .bool b => boolToString b
  | .int n => bytes (toString n)
  | .float x => bytes (toString x.num ++ ".0")
  | .str s => byte '"' :: s ++ [byte '"']
  | .arr elems => byte '[' :: plainElems elems ++ [byte ']']
  | .obj members => bytes "\x7b" ++ plainMembers members ++ bytes "\x7d"

/-- The elements of an array. -/
def plainElems : List (Json ℚ) → Bytes
  | [] => []
  | [e] => plainText e
  | e :: es => plainText e ++ byte ',' :: plainElems es

/-- The members of an object. -/
def plainMembers : List (Bytes × Json ℚ) → Bytes
  | [] => []
  | [(key, v)] => byte '"' :: key ++ bytes "\":" ++ plainText v
  | (key, v) :: ms => byte '"' :: key ++ bytes "\":" ++ plainText v ++ byte ',' :: plainMembers ms

end

/-- A trade of `A` with the given timestamp, and one of `B` without. -/
def twoTrades (t : Json ℚ) : Json ℚ := .arr [
  .obj [(bytes "S", .str (bytes "A")), (bytes "T", .str (bytes "t")), (bytes "t", t)],
  .obj [(bytes "S", .str (bytes "B")), (bytes "T", .str (bytes "t"))]]

/-- The JSON library on two frames. -/
def tradesJson : JsonLibrary ℚ where
  parse text :=
    if text = plainText (twoTrades .null) then .ok (twoTrades .null)
    else if text = plainText (twoTrades (.int 5)) then .ok (twoTrades (.int 5))
    else .error (bytes "syntax error")
  dump j := .ok (plainText j)

theorem tradesJson_parsedPrints : tradesJson.ParsedPrints := fun _ _ k _ _ ↦ ⟨plainText k, rfl⟩

/-- A stream with every handler set and no subscriptions. -/
def allSet : StreamSetting where
  isSet _ := true
  onError := true
  onSubscription := true
  onConnected := true
  channels := []

/-- A null timestamp is not in the way. -/
theorem handles_twoTrades :
    Handles tradesJson (fun _ ↦ allSet) (plainText (twoTrades .null))
        (handleFrame tradesJson (fun _ ↦ allSet) (plainText (twoTrades .null))) ∧
      (handleFrame tradesJson (fun _ ↦ allSet) (plainText (twoTrades .null))).outputs =
        [.message (bytes "A") (.trade .empty), .message (bytes "B") (.trade .empty)] := by
  refine ⟨(handles_iff tradesJson_parsedPrints _ _).2 fun j i message hj hi ↦ ?_, by decide +kernel⟩
  have hparse : tradesJson.parse (plainText (twoTrades .null)) = .ok (twoTrades .null) := rfl
  obtain rfl := Except.ok.inj (hparse.symm.trans hj)
  have hprints : tradesJson.Prints message := ⟨plainText message, rfl⟩
  rw [← thrown_handle_eq_none_iff hprints]
  rcases i with - | - | i
  · obtain rfl := Option.some_inj.1 hi
    decide +kernel
  · obtain rfl := Option.some_inj.1 hi
    decide +kernel
  · exact absurd hi (by simp [twoTrades, framePayloads])

/-- **One bad timestamp loses the batch**: the trade behind it is well typed, and is not handed to its
handler. -/
theorem not_handles_twoTrades :
    handleFrame tradesJson (fun _ ↦ allSet) (plainText (twoTrades (.int 5))) =
        ⟨[], some (bytes "type must be string")⟩ ∧
      ¬∀ (lib : JsonLibrary ℚ) (env : ℕ → StreamSetting) (data : Bytes), lib.ParsedPrints →
        Handles lib env data (handleFrame lib env data) := by
  have hlost : handleFrame tradesJson (fun _ ↦ allSet) (plainText (twoTrades (.int 5))) =
      ⟨[], some (bytes "type must be string")⟩ := by
    decide +kernel
  refine ⟨hlost, fun h ↦ ?_⟩
  have hreturns := (h tradesJson (fun _ ↦ allSet) (plainText (twoTrades (.int 5)))
    tradesJson_parsedPrints).returns
  rw [hlost] at hreturns
  exact absurd hreturns (by simp)

end StockDataStream

end Alpaca
