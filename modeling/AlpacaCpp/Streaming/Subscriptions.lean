import AlpacaCpp.Streaming.DataStream

/-!
# What the server holds against what the user asked for

The user thread changes the set of subscriptions and announces the change afterwards, if it sees the
stream ready; the service thread reads the whole set in `on_ready` and announces it afterwards. Two
questions about a quiescent state, in which all of that is over and every frame has been processed:

* `pending_subset_server`: nothing wanted is missing at the server. A `subscribe` that is not announced
  has read `state_` before `mark_ready` stored `ready`, so its section ran before the one of `on_ready`.
  `Covered` is the invariant. It rests on every subscription having a frame: a `subscribe` whose frame
  cannot be encoded has changed the set when it throws, and every replay behind it throws as well
  (`lost_unwritableSymbol`). `Announceable` is the condition that leaves such calls out.
* `server_subset_pending`: nothing is left at the server that nobody wants. Here the order of the two
  announcements matters, and the code does not control it: an unsubscribe frame may overtake a replay
  that was read before and still names its symbol (`ghost_crossedUnsubscribe`). `Orderly` is the
  condition under which no frame does and none goes missing, and `Warranted` the invariant of the runs
  that meet it. An exception in `subscribe` or in `on_ready` does no harm here.

Both invariants speak of what has been announced, which is what the server holds once the link is
drained (`Quiescent.server_eq`). They are proved from one inversion lemma for each label, and each of
them holds of whole runs by `Machine.RunsUnder.invariant`.

Both conditions are on labels of the user alone. The service thread, the reconnect thread and the network
may do what they like; there may be any number of sessions, and a session may end at any place.
-/

namespace Alpaca

namespace UserPc

/-- What the frame of the call in progress names, if it has the given action. -/
def items (action : ControlAction) : UserPc → Finset (Channel × Bytes)
  | .idle => ∅
  | .check f | .send f => if f.action = action then f.items else ∅

end UserPc

namespace Replay

/-- What the frame of a replay names while it is not sent. -/
def items : Replay → Finset (Channel × Bytes)
  | .unsent f => f.items
  | _ => ∅

end Replay

namespace DataStream

variable {writable : Bytes → Bool} {d d' : DataStream} {a : Action} {channel : Channel} {symbols : List Bytes}

/-! ### What a step can do

One inversion lemma for each label, in terms of the pairs a frame names. The invariants below rest on
these and never unfold the step function. -/

/-- A label of `StreamBase`. -/
theorem base_step {a : StreamBase.Action} (h : d.step writable (.base a) = some d') :
    d.base.step a = some d'.base ∧ d'.channels = d.channels ∧ d'.user = d.user ∧
      d'.link = (if a = .socketConnected then .opened else d.link) ∧
      d'.replay = (if a = .resetAttempt then .begin else d.replay) ∧
      (a = .onReadyReturn → d.replay = .none) := by
  obtain ⟨b, hb, hfollow⟩ := Option.bind_eq_some_iff.1 h
  cases a
  case onReadyReturn =>
    obtain ⟨hreplay, rfl⟩ := whenever_eq_some.1 hfollow
    exact ⟨hb, rfl, rfl, rfl, rfl, fun _ ↦ hreplay⟩
  all_goals
    obtain rfl := Option.some.inj hfollow
    exact ⟨hb, rfl, rfl, rfl, rfl, by simp⟩

/-- A `subscribe` adds what its frame names, and has that frame to send unless it cannot be encoded. -/
theorem subscribe_step (h : d.step writable (.subscribe channel symbols) = some d') :
    d.user = .idle ∧ (d' = d ∨ ∃ f channels, f = ⟨.subscribe, [(channel, symbols.toFinset)]⟩ ∧
      d' = { d with channels := channels, user := announce writable f } ∧
      d'.pending = d.pending ∪ f.items) := by
  obtain ⟨hidle, rfl⟩ := whenever_eq_some.1 h
  by_cases hsymbols : symbols = []
  · exact ⟨hidle, .inl (if_pos hsymbols)⟩
  · exact ⟨hidle, .inr ⟨_, _, rfl, if_neg hsymbols, pending_subscribe writable d channel hsymbols⟩⟩

/-- An `unsubscribe` removes what its frame names, whether or not there is a frame. -/
theorem unsubscribe_step (h : d.step writable (.unsubscribe channel symbols) = some d') :
    d.user = .idle ∧ (d' = d ∨ ∃ f channels, f = ⟨.unsubscribe, [(channel, symbols.toFinset)]⟩ ∧
      d' = { d with channels := channels, user := announce writable f } ∧
      d'.pending = d.pending \ f.items) := by
  obtain ⟨hidle, rfl⟩ := whenever_eq_some.1 h
  by_cases hsymbols : symbols = []
  · exact ⟨hidle, .inl (if_pos hsymbols)⟩
  · exact ⟨hidle, .inr ⟨_, _, rfl, if_neg hsymbols, pending_unsubscribe writable d channel hsymbols⟩⟩

/-- `state_` is read behind the locked section, and decides whether a frame is sent. -/
theorem checkReady_step (h : d.step writable .checkReady = some d') :
    ∃ f, d.user = .check f ∧
      d' = { d with user := if d.base.state = .ready then .send f else .idle } := by
  rw [step] at h
  split at h
  case h_1 f hf => exact ⟨f, hf, (Option.some.inj h).symm⟩
  case h_2 => cases h

/-- The frame goes onto the link, whatever has happened since. -/
theorem userSend_step (h : d.step writable .userSend = some d') :
    ∃ f, d.user = .send f ∧ d' = { d with user := .idle, link := d.link.send f } := by
  rw [step] at h
  split at h
  case h_1 f hf => exact ⟨f, hf, (Option.some.inj h).symm⟩
  case h_2 => cases h

/-- `on_ready` fixes a replay of the whole set, or throws and leaves none. -/
theorem onReady_step (h : d.step writable .onReady = some d') :
    d.base.service = .onReady ∧ d.replay = .begin ∧
      ∃ replay, d' = { d with replay := replay } ∧ replay.items ⊆ d.pending ∧
        (∀ f, replay = .unsent f → f.action = .subscribe) ∧
        ((d.buildFrame .subscribe).Encodes writable → replay.items = d.pending) ∧ replay ≠ .begin := by
  obtain ⟨⟨hservice, hreplay⟩, rfl⟩ := whenever_eq_some.1 h
  refine ⟨hservice, hreplay, _, rfl, ?_⟩
  split
  case isTrue =>
    have hitems : (Replay.unsent (d.buildFrame .subscribe)).items = d.pending := items_buildFrame .subscribe
    exact ⟨hitems.subset, fun f hf ↦ Replay.unsent.inj hf ▸ rfl, fun _ ↦ hitems, by simp⟩
  case isFalse hnone =>
    refine ⟨Finset.empty_subset _, by simp, fun hencodes ↦ ?_, by simp⟩
    exact (pending_eq_empty fun hsome ↦ hnone ⟨hsome, hencodes⟩).symm

/-- The replay goes onto the link, whatever has happened since. -/
theorem sendReplay_step (h : d.step writable .sendReplay = some d') :
    ∃ f, d.replay = .unsent f ∧ d' = { d with replay := .none, link := d.link.send f } := by
  rw [step] at h
  split at h
  case h_1 f hf => exact ⟨f, hf, (Option.some.inj h).symm⟩
  case h_2 => cases h

/-- The socket going down and an arrival at the server leave everything sent as it is. -/
theorem network_step (ha : a = .linkDown ∨ a = .deliver) (h : d.step writable a = some d') :
    ∃ link linkUp, d' = { d with link := link, linkUp := linkUp } ∧ link.sent = d.link.sent := by
  rcases ha with rfl | rfl
  · exact ⟨d.link, false, (Option.some.inj h).symm, rfl⟩
  · rw [step] at h
    split at h
    · obtain ⟨link, hlink, rfl⟩ := Option.map_eq_some_iff.1 h
      exact ⟨link, d.linkUp, rfl, OrderedLink.sent_of_deliver? hlink⟩
    · cases h

/-! ### The two threads

What holds wherever the two threads stand. The frame in the hand of the user thread is about a change that
has been made: what it subscribes is wanted, and what it unsubscribes is not. A replay exists only while
the service thread is in `on_ready`, and a ready stream has a session. -/

/-- What holds of the threads at any time. -/
structure Coherent (d : DataStream) : Prop where
  session : d.base.state = .ready → d.base.session = true
  replay_none : d.base.service ≠ .onReady → d.replay = .none
  replay_action : ∀ f, d.replay = .unsent f → f.action = .subscribe
  inserted : d.user.items .subscribe ⊆ d.pending
  erased : Disjoint (d.user.items .unsubscribe) d.pending

/-- The labels of the stream keep the two threads coherent. -/
theorem Coherent.base {a : StreamBase.Action} (hd : d.Coherent)
    (h : d.step writable (.base a) = some d') : d'.Coherent := by
  obtain ⟨hbase, hchannels, huser, -, hreplay, hreturn⟩ := base_step h
  have hpending : d'.pending = d.pending := by rw [pending, hchannels, pending]
  constructor
  · exact StreamBase.session_of_ready hd.session hbase
  · intro hservice
    rw [hreplay]
    by_cases ha : a = .resetAttempt
    · subst ha
      exact absurd (StreamBase.service_of_step hbase) hservice
    rw [if_neg ha]
    by_cases hon : d.base.service = .onReady
    · -- The service thread leaves `on_ready` only when it is done.
      exact hreturn (StreamBase.leaves_onReady hbase hon hservice)
    · exact hd.replay_none hon
  · intro f hf
    rw [hreplay] at hf
    split at hf
    · cases hf
    · exact hd.replay_action f hf
  · rw [huser, hpending]
    exact hd.inserted
  · rw [huser, hpending]
    exact hd.erased

@[simp] theorem items_check (f : ControlFrame) (action : ControlAction) :
    (UserPc.check f).items action = if f.action = action then f.items else ∅ := rfl

@[simp] theorem items_send (f : ControlFrame) (action : ControlAction) :
    (UserPc.send f).items action = if f.action = action then f.items else ∅ := rfl

@[simp] theorem items_idle (action : ControlAction) : UserPc.idle.items action = ∅ := rfl

/-- A call that throws has nothing to send; otherwise it sends its frame. -/
theorem items_announce_subset (f : ControlFrame) (action : ControlAction) :
    (announce writable f).items action ⊆ f.items := by
  rw [announce]
  split
  · rw [items_check]
    split
    · exact Finset.Subset.refl _
    · exact Finset.empty_subset _
  · exact Finset.empty_subset _

/-- A frame of one action names nothing for the other. -/
theorem items_announce_of_ne {f : ControlFrame} {action : ControlAction} (h : f.action ≠ action) :
    (announce writable f).items action = ∅ := by
  rw [announce]
  split
  · exact if_neg h
  · rfl

theorem announce_of_encodes {f : ControlFrame} (h : f.Encodes writable) : announce writable f = .check f :=
  if_pos h

/-- **Step lemma.** -/
theorem Coherent.step (hd : d.Coherent) (h : d.step writable a = some d') : d'.Coherent := by
  obtain ⟨hsession, hnone, haction, hinserted, herased⟩ := id hd
  cases a with
  | base a => exact hd.base h
  | subscribe channel symbols =>
    obtain ⟨-, rfl | ⟨f, channels, hf, rfl, hpending⟩⟩ := subscribe_step h
    · exact hd
    · refine ⟨hsession, hnone, haction, ?_, ?_⟩
      · rw [hpending]
        exact (items_announce_subset f .subscribe).trans Finset.subset_union_right
      · rw [items_announce_of_ne (by simp [hf])]
        exact Finset.disjoint_empty_left _
  | unsubscribe channel symbols =>
    obtain ⟨-, rfl | ⟨f, channels, hf, rfl, hpending⟩⟩ := unsubscribe_step h
    · exact hd
    · refine ⟨hsession, hnone, haction, ?_, ?_⟩
      · rw [items_announce_of_ne (by simp [hf])]
        exact Finset.empty_subset _
      · rw [hpending]
        exact Finset.disjoint_of_subset_left (items_announce_subset f .unsubscribe) Finset.disjoint_sdiff
  | checkReady =>
    obtain ⟨f, hf, rfl⟩ := checkReady_step h
    rw [hf] at hinserted herased
    -- ready: the frame will be sent; not ready: it is forgotten
    by_cases hready : d.base.state = .ready
    · rw [if_pos hready]
      exact ⟨hsession, hnone, haction, hinserted, herased⟩
    · rw [if_neg hready]
      exact ⟨hsession, hnone, haction, Finset.empty_subset _, Finset.disjoint_empty_left _⟩
  | userSend =>
    obtain ⟨f, -, rfl⟩ := userSend_step h
    exact ⟨hsession, hnone, haction, Finset.empty_subset _, Finset.disjoint_empty_left _⟩
  | onReady =>
    obtain ⟨hservice, -, replay, rfl, -, hreplay, -⟩ := onReady_step h
    exact ⟨hsession, fun hne ↦ absurd hservice hne, hreplay, hinserted, herased⟩
  | sendReplay =>
    obtain ⟨f, -, rfl⟩ := sendReplay_step h
    exact ⟨hsession, fun _ ↦ rfl, by simp, hinserted, herased⟩
  | linkDown | deliver =>
    obtain ⟨link, linkUp, rfl, -⟩ := network_step (by simp) h
    exact ⟨hsession, hnone, haction, hinserted, herased⟩

/-- The threads start out coherent. -/
theorem coherent_start (callers : ℕ) (policy : ReconnectPolicy) :
    (start callers policy).Coherent :=
  ⟨StreamState.noConfusion, fun _ ↦ rfl, fun _ ↦ Replay.noConfusion, Finset.empty_subset _,
    Finset.disjoint_empty_left _⟩

/-! ### What has been announced

The contents of the link are the frames that were sent in this session, whether or not the server has read
them. A new connection begins with nothing announced, and this is why `on_ready` has to replay. -/

/-- What the server will hold for the session once everything sent and the replay under way have
arrived. -/
def announced (d : DataStream) : Finset (Channel × Bytes) :=
  itemsOf d.link.sent ∪ d.replay.items

theorem itemsOf_send (link : OrderedLink ControlFrame) (f : ControlFrame) :
    itemsOf (link.send f).sent = SetOp.apply (itemsOf link.sent) f.op := by
  rw [OrderedLink.sent_send, itemsOf, List.map_append]
  exact SetOp.contents_concat _ _

theorem itemsOf_send_subscribe (link : OrderedLink ControlFrame) {f : ControlFrame}
    (hf : f.action = .subscribe) : itemsOf (link.send f).sent = itemsOf link.sent ∪ f.items := by
  rw [itemsOf_send, ControlFrame.op, hf]
  rfl

theorem itemsOf_send_unsubscribe (link : OrderedLink ControlFrame) {f : ControlFrame}
    (hf : f.action = .unsubscribe) : itemsOf (link.send f).sent = itemsOf link.sent \ f.items := by
  rw [itemsOf_send, ControlFrame.op, hf]
  rfl

theorem mem_announced {d : DataStream} {x : Channel × Bytes} :
    x ∈ d.announced ↔ x ∈ itemsOf d.link.sent ∨ x ∈ d.replay.items := Finset.mem_union

theorem announced_network {link : OrderedLink ControlFrame} (linkUp : Bool)
    (h : link.sent = d.link.sent) :
    announced { d with link := link, linkUp := linkUp } = d.announced := by
  rw [announced, h, announced]

/-- Sending the replay announces nothing new. -/
theorem announced_sendReplay {f : ControlFrame} (hd : d.Coherent) (hf : d.replay = .unsent f) :
    announced { d with replay := .none, link := d.link.send f } = d.announced := by
  rw [announced, announced, itemsOf_send_subscribe _ (hd.replay_action f hf), hf]
  exact Finset.union_empty _

/-- In a quiescent state the server holds what has been announced. -/
theorem Quiescent.server_eq (hq : d.Quiescent) : d.server = d.announced := by
  rw [server, OrderedLink.received_of_drained hq.drained, announced, hq.replayed]
  exact (Finset.union_empty _).symm

/-! ### No lost subscription

Once the replay of a ready session is fixed, every pair that is wanted is announced, or in the hand of the
user thread that will announce it. A `subscribe` whose frame cannot be encoded breaks this at once, and
the replay of the next session does not repair it, since it has to encode the same symbol. -/

/-- A subscription whose frame can be encoded. -/
def Announceable (writable : Bytes → Bool) : Action → Prop
  | .subscribe channel symbols => ControlFrame.Encodes writable ⟨.subscribe, [(channel, symbols.toFinset)]⟩
  | _ => True

instance (writable : Bytes → Bool) : DecidablePred (Announceable writable)
  | .subscribe .. => inferInstanceAs (Decidable (ControlFrame.Encodes _ _))
  | .base _ | .unsubscribe .. | .checkReady | .userSend | .onReady | .sendReplay | .linkDown | .deliver =>
    inferInstanceAs (Decidable True)

/-- Whatever is wanted can be encoded. -/
def Encodable (writable : Bytes → Bool) (d : DataStream) : Prop :=
  ∀ p ∈ d.pending, writable p.1.1 = true ∧ writable p.2 = true

theorem Encodable.buildFrame (hd : d.Encodable writable) (action : ControlAction) :
    (d.buildFrame action).Encodes writable := by
  rw [ControlFrame.Encodes, items_buildFrame]
  exact hd

/-- **Step lemma.** Only a subscription adds to the set. -/
theorem Encodable.step (hd : d.Encodable writable) (ha : Announceable writable a)
    (h : d.step writable a = some d') : d'.Encodable writable := by
  cases a with
  | base a =>
    obtain ⟨-, hchannels, -⟩ := base_step h
    rwa [Encodable, pending, hchannels, ← pending]
  | subscribe channel symbols =>
    obtain ⟨-, rfl | ⟨f, channels, rfl, rfl, hpending⟩⟩ := subscribe_step h
    · exact hd
    · intro p hp
      rw [hpending, Finset.mem_union] at hp
      exact hp.elim (hd p) (ha p)
  | unsubscribe channel symbols =>
    obtain ⟨-, rfl | ⟨f, channels, -, rfl, hpending⟩⟩ := unsubscribe_step h
    · exact hd
    · intro p hp
      rw [hpending] at hp
      exact hd p (Finset.mem_sdiff.1 hp).1
  | checkReady =>
    obtain ⟨f, -, rfl⟩ := checkReady_step h
    exact hd
  | userSend =>
    obtain ⟨f, -, rfl⟩ := userSend_step h
    exact hd
  | onReady =>
    obtain ⟨-, -, replay, rfl, -⟩ := onReady_step h
    exact hd
  | sendReplay =>
    obtain ⟨f, -, rfl⟩ := sendReplay_step h
    exact hd
  | linkDown | deliver =>
    obtain ⟨link, linkUp, rfl, -⟩ := network_step (by simp) h
    exact hd

/-- Once the replay of a ready session is fixed, whatever is wanted is announced or about to be. -/
def Covered (d : DataStream) : Prop :=
  d.base.state = .ready → d.base.service ≠ .resetAttempt → d.replay ≠ .begin →
    d.pending ⊆ d.announced ∪ d.user.items .subscribe

/-- The labels of the stream keep the set covered. -/
theorem Covered.base {a : StreamBase.Action} (hd : d.Covered) (h : d.step writable (.base a) = some d') :
    d'.Covered := by
  obtain ⟨hbase, hchannels, huser, hlink, hreplay, -⟩ := base_step h
  intro hready hmarked hbegin
  have hpending : d'.pending = d.pending := by rw [pending, hchannels, pending]
  -- `ready` and the locked section of `mark_ready` come before `on_ready`.
  have hstore : a ≠ .storeReady := fun ha ↦ by
    subst ha
    exact hmarked (StreamBase.service_of_step hbase)
  have hreset : a ≠ .resetAttempt := fun ha ↦ hbegin (by rw [hreplay, if_pos ha])
  have hconnected : a ≠ .socketConnected := fun ha ↦ by
    subst ha
    rw [StreamBase.state_of_step hbase] at hready
    cases hready
  rw [if_neg hconnected] at hlink
  rw [if_neg hreset] at hreplay
  have hstate : d.base.state = .ready := (StreamBase.ready_of_step hbase hready).resolve_left hstore
  have hservice : d.base.service ≠ .resetAttempt := fun heq ↦
    hreset (StreamBase.leaves_resetAttempt hbase heq hmarked)
  rw [hreplay] at hbegin
  rw [hpending, huser, announced, hlink, hreplay]
  exact hd hstate hservice hbegin

/-- **Step lemma.** The frame of a subscription covers what it has added to the set, and the replay covers
the whole set; both are there because they can be encoded. -/
theorem Covered.step (hc : d.Coherent) (he : d.Encodable writable) (hd : d.Covered)
    (ha : Announceable writable a) (h : d.step writable a = some d') : d'.Covered := by
  cases a with
  | base a => exact hd.base h
  | subscribe channel symbols =>
    obtain ⟨hidle, rfl | ⟨f, channels, hf, rfl, hpending⟩⟩ := subscribe_step h
    · exact hd
    · intro hready hmarked hbegin
      have hcovered := hd hready hmarked hbegin
      rw [hidle, items_idle, Finset.union_empty] at hcovered
      subst hf
      rw [hpending, announce_of_encodes ha, items_check, if_pos rfl]
      exact Finset.union_subset_union_left hcovered
  | unsubscribe channel symbols =>
    obtain ⟨hidle, rfl | ⟨f, channels, hf, rfl, hpending⟩⟩ := unsubscribe_step h
    · exact hd
    · intro hready hmarked hbegin
      have hcovered := hd hready hmarked hbegin
      rw [hidle, items_idle, Finset.union_empty] at hcovered
      rw [hpending]
      exact (Finset.sdiff_subset.trans hcovered).trans Finset.subset_union_left
  | checkReady =>
    obtain ⟨f, hf, rfl⟩ := checkReady_step h
    intro hready hmarked hbegin
    -- A check that reads anything but `ready` leaves the frame to the next replay.
    have hcovered := hd hready hmarked hbegin
    rw [hf] at hcovered
    rw [if_pos (show d.base.state = .ready from hready)]
    exact hcovered
  | userSend =>
    obtain ⟨f, hf, rfl⟩ := userSend_step h
    intro hready hmarked hbegin x hx
    have hcovered := hd hready hmarked hbegin hx
    have herased : x ∉ d.user.items .unsubscribe := Finset.disjoint_right.1 hc.erased hx
    rw [hf, items_send] at hcovered herased
    rw [Finset.mem_union, mem_announced] at hcovered ⊢
    cases haction : f.action with
    | subscribe =>
      rw [itemsOf_send_subscribe _ haction, Finset.mem_union]
      rw [if_pos haction] at hcovered
      tauto
    | unsubscribe =>
      -- What an unsubscribe frame takes away is not wanted any more.
      rw [if_pos haction] at herased
      rw [itemsOf_send_unsubscribe _ haction, Finset.mem_sdiff]
      rw [if_neg (by simp [haction])] at hcovered
      have hnot : x ∉ (∅ : Finset (Channel × Bytes)) := Finset.notMem_empty x
      tauto
  | onReady =>
    obtain ⟨-, -, replay, rfl, -, -, hencodes, -⟩ := onReady_step h
    have hitems := hencodes (he.buildFrame .subscribe)
    intro _ _ _
    exact (hitems.symm.subset.trans Finset.subset_union_right).trans Finset.subset_union_left
  | sendReplay =>
    obtain ⟨f, hf, rfl⟩ := sendReplay_step h
    intro hready hmarked _
    rw [announced_sendReplay hc hf]
    exact hd hready hmarked (by simp [hf])
  | linkDown | deliver =>
    obtain ⟨link, linkUp, rfl, hsent⟩ := network_step (by simp) h
    intro hready hmarked hbegin
    rw [announced_network linkUp hsent]
    exact hd hready hmarked hbegin

/-- **Nothing wanted is missing**, in a quiescent state. -/
theorem Quiescent.pending_subset {callers : ℕ} {policy : ReconnectPolicy} {as : List Action} (hq : d.Quiescent)
    (hrun : (machine writable).RunsUnder (fun _ ↦ Announceable writable) (start callers policy) as d) :
    d.pending ⊆ d.server := by
  have hinv : d.Coherent ∧ d.Encodable writable ∧ d.Covered :=
    hrun.invariant (P := fun d ↦ d.Coherent ∧ d.Encodable writable ∧ d.Covered)
      (fun _ _ _ hs ha h ↦ ⟨hs.1.step h, hs.2.1.step ha h, hs.2.2.step hs.1 hs.2.1 ha h⟩)
      ⟨coherent_start callers policy, fun p hp ↦ absurd hp (Finset.notMem_empty p), fun h ↦ by cases h⟩
  have hcovered := hinv.2.2 hq.ready hq.marked (by simp [hq.replayed])
  rwa [hq.idle, items_idle, Finset.union_empty, ← hq.server_eq] at hcovered

/-- **No lost subscription.** In every run whose subscriptions can be encoded, whatever any thread does and
however often the stream reconnects: in a quiescent state everything wanted is in the set of the server. -/
theorem pending_subset_server {callers : ℕ} {policy : ReconnectPolicy} {as : List Action}
    (hrun : (machine writable).RunsUnder (fun _ ↦ Announceable writable) (start callers policy) as d)
    (hq : d.Quiescent) : d.pending ⊆ d.server := hq.pending_subset hrun

/-- The channel of the trades. -/
def trades : Channel := ⟨bytes "trades", by decide⟩

/-- The labels of `StreamBase` from `connect` to an acknowledged session. -/
def connected : List Action :=
  [.base (.callConnect 0), .base (.connectLock 0), .base (.connectStore 0), .base (.connectOpen 0),
    .base .socketConnected, .base .sendAuth, .base .storeReady, .base .resetAttempt]

/-- A subscription made before `connect`, and one made while the replay is under way. -/
def earlySubscriptions : List Action :=
  [.subscribe trades [bytes "AAPL"], .checkReady] ++ connected ++
    [.onReady, .subscribe trades [bytes "TSLA"], .checkReady, .sendReplay, .userSend,
      .base .onReadyReturn, .deliver, .deliver]

/-- Both reach the server. -/
theorem pending_subset_server_earlySubscriptions :
    ∃ d, (machine isUtf8).run (start 1 {}) earlySubscriptions = some d ∧ d.pending.card = 2 ∧
      d.pending ⊆ d.server := by
  obtain ⟨d, hd⟩ : ∃ d, (machine isUtf8).check (fun _ ↦ Announceable isUtf8) (start 1 {}) earlySubscriptions =
      some d := Option.isSome_iff_exists.1 (by decide +kernel)
  have hend : ∀ d ∈ (machine isUtf8).check (fun _ ↦ Announceable isUtf8) (start 1 {}) earlySubscriptions,
      Quiescent d ∧ d.pending.card = 2 := by decide +kernel
  have hrun := Machine.runsUnder_iff_check.2 hd
  exact ⟨d, hrun.run_eq, (hend d hd).2, pending_subset_server hrun (hend d hd).1⟩

/-- A subscription on a ready stream that `dump` does not take: the set has it, and no frame says so. -/
theorem lost_unwritableSymbol :
    ¬ ∀ d, (machine isUtf8).run (start 1 {})
        (connected ++ [.onReady, .base .onReadyReturn, .subscribe trades [[0xFF]]]) = some d →
      d.Quiescent → d.pending ⊆ d.server := by
  have hend : ∃ d ∈ (machine isUtf8).run (start 1 {})
      (connected ++ [.onReady, .base .onReadyReturn, .subscribe trades [[0xFF]]]),
      Quiescent d ∧ ¬ d.pending ⊆ d.server := by decide +kernel
  obtain ⟨d, hd, hquiescent, hlost⟩ := hend
  exact fun h ↦ hlost (h d hd hquiescent)

/-! ### No ghost subscription

Every pair that has been announced is wanted, or an unsubscribe that names it is in the hand of the user
thread. That depends on the order of the announcements. An unsubscribe that leaves no frame, because
`encode` threw or because the stream was not ready, leaves nothing in hand either, and `Orderly` excludes
it where the session has been told a pair it names. -/

/-- An unsubscribe frame is not sent, and does not go missing during a session, while something it names is
still to be announced: it names nothing of a replay that is read and not sent, and one that its ready check
drops, or that cannot be encoded, names nothing the session has been told at all. -/
def Orderly (writable : Bytes → Bool) (d : DataStream) : Action → Prop
  | .userSend => Disjoint (d.user.items .unsubscribe) d.replay.items
  | .checkReady =>
    d.base.state ≠ .ready → d.base.session → Disjoint (d.user.items .unsubscribe) d.announced
  | .unsubscribe channel symbols =>
    ¬ControlFrame.Encodes writable ⟨.unsubscribe, [(channel, symbols.toFinset)]⟩ → d.base.session →
      Disjoint (ControlFrame.items ⟨.unsubscribe, [(channel, symbols.toFinset)]⟩) d.announced
  | _ => True

instance (writable : Bytes → Bool) (d : DataStream) : DecidablePred (d.Orderly writable)
  | .userSend => inferInstanceAs (Decidable (Disjoint _ _))
  | .checkReady | .unsubscribe .. => inferInstanceAs (Decidable (_ → _))
  | .base _ | .subscribe .. | .onReady | .sendReplay | .linkDown | .deliver =>
    inferInstanceAs (Decidable True)

/-- Whatever a session has been told is wanted, or an unsubscribe is about to take it back. -/
def Warranted (d : DataStream) : Prop :=
  d.base.session = true → d.announced ⊆ d.pending ∪ d.user.items .unsubscribe

/-- The labels of the stream keep what is announced warranted. -/
theorem Warranted.base {a : StreamBase.Action} (hc : d.Coherent) (hd : d.Warranted)
    (h : d.step writable (.base a) = some d') : d'.Warranted := by
  obtain ⟨hbase, hchannels, huser, hlink, hreplay, -⟩ := base_step h
  intro hsession
  have hpending : d'.pending = d.pending := by rw [pending, hchannels, pending]
  rw [hpending, huser]
  by_cases hconnected : a = .socketConnected
  · -- A new connection starts with nothing, and the service thread is not in `on_ready`.
    subst hconnected
    have hidle : d.base.service = .idle := (whenever_eq_some.1 hbase).1.1
    have hnone : d.replay = .none := hc.replay_none (by simp [hidle])
    rw [announced, hlink, hreplay, if_pos rfl, if_neg (by simp), hnone]
    exact Finset.empty_subset _
  · rw [if_neg hconnected] at hlink
    have hopen : d.base.session = true := by
      rw [StreamBase.session_of_step hbase] at hsession
      cases a
      case socketConnected => exact absurd rfl hconnected
      case socketDisconnected => cases hsession
      all_goals exact hsession
    refine Finset.Subset.trans ?_ (hd hopen)
    rw [announced, announced, hlink, hreplay]
    split
    · exact Finset.union_subset_union_right (Finset.empty_subset _)
    · exact Finset.Subset.refl _

/-- **Step lemma.** Only a frame that is sent or a replay that is read can announce more, and only an
unsubscribe can take from what is wanted. -/
theorem Warranted.step (hc : d.Coherent) (hd : d.Warranted) (ho : d.Orderly writable a)
    (h : d.step writable a = some d') : d'.Warranted := by
  cases a with
  | base a => exact hd.base hc h
  | subscribe channel symbols =>
    obtain ⟨hidle, rfl | ⟨f, channels, hf, rfl, hpending⟩⟩ := subscribe_step h
    · exact hd
    · intro hsession
      have hwarranted := hd hsession
      rw [hidle, items_idle, Finset.union_empty] at hwarranted
      rw [hpending]
      exact (hwarranted.trans Finset.subset_union_left).trans Finset.subset_union_left
  | unsubscribe channel symbols =>
    obtain ⟨hidle, rfl | ⟨f, channels, hf, rfl, hpending⟩⟩ := unsubscribe_step h
    · exact hd
    · intro hsession
      have hwarranted : d.announced ⊆ d.pending := by
        have h := hd hsession
        rwa [hidle, items_idle, Finset.union_empty] at h
      subst hf
      rw [hpending]
      by_cases hencodes : ControlFrame.Encodes writable ⟨.unsubscribe, [(channel, symbols.toFinset)]⟩
      · rw [announce_of_encodes hencodes, items_check, if_pos rfl, Finset.sdiff_union_self_eq_union]
        exact hwarranted.trans Finset.subset_union_left
      · -- There is no frame to take anything back, so the session must not have been told of it.
        have htold := ho hencodes hsession
        exact (Finset.subset_sdiff.2 ⟨hwarranted, htold.symm⟩).trans Finset.subset_union_left
  | checkReady =>
    obtain ⟨f, hf, rfl⟩ := checkReady_step h
    intro hsession x hx
    have hwarranted := hd hsession hx
    by_cases hready : d.base.state = .ready
    · rw [if_pos hready]
      rwa [hf] at hwarranted
    · have hnot : x ∉ d.user.items .unsubscribe := Finset.disjoint_right.1 (ho hready hsession) hx
      rw [if_neg hready, items_idle, Finset.union_empty]
      exact (Finset.mem_union.1 hwarranted).resolve_right hnot
  | userSend =>
    obtain ⟨f, hf, rfl⟩ := userSend_step h
    intro hsession x hx
    rw [items_idle, Finset.union_empty]
    have hwarranted : x ∈ d.announced → x ∈ d.pending ∨ x ∈ d.user.items .unsubscribe :=
      fun hx ↦ Finset.mem_union.1 (hd hsession hx)
    have hinserted : x ∈ d.user.items .subscribe → x ∈ d.pending := fun hx ↦ hc.inserted hx
    have hreplay : x ∈ d.replay.items → x ∉ d.user.items .unsubscribe :=
      fun hx ↦ Finset.disjoint_right.1 ho hx
    rw [hf, items_send] at hwarranted hinserted hreplay
    rw [mem_announced] at hx hwarranted
    show x ∈ d.pending
    cases haction : f.action with
    | subscribe =>
      rw [itemsOf_send_subscribe _ haction, Finset.mem_union] at hx
      simp only [haction, reduceCtorEq, if_false, if_true, Finset.notMem_empty] at hwarranted hinserted
      tauto
    | unsubscribe =>
      rw [itemsOf_send_unsubscribe _ haction, Finset.mem_sdiff] at hx
      simp only [haction, if_true] at hwarranted hreplay
      tauto
  | onReady =>
    obtain ⟨-, -, replay, rfl, hitems, -⟩ := onReady_step h
    intro hsession x hx
    rcases mem_announced.1 hx with hsent | hreplay
    · exact hd hsession (mem_announced.2 (.inl hsent))
    · exact Finset.mem_union_left _ (hitems hreplay)
  | sendReplay =>
    obtain ⟨f, hf, rfl⟩ := sendReplay_step h
    intro hsession
    rw [announced_sendReplay hc hf]
    exact hd hsession
  | linkDown | deliver =>
    obtain ⟨link, linkUp, rfl, hsent⟩ := network_step (by simp) h
    intro hsession
    rw [announced_network linkUp hsent]
    exact hd hsession

/-- **Nothing is left that nobody wants**, in a quiescent state. -/
theorem Quiescent.server_subset {callers : ℕ} {policy : ReconnectPolicy} {as : List Action} (hq : d.Quiescent)
    (hrun : (machine writable).RunsUnder (Orderly writable) (start callers policy) as d) :
    d.server ⊆ d.pending := by
  have hinv : d.Coherent ∧ d.Warranted :=
    hrun.invariant (P := fun d ↦ d.Coherent ∧ d.Warranted)
      (fun _ _ _ hs ho h ↦ ⟨hs.1.step h, hs.2.step hs.1 ho h⟩)
      ⟨coherent_start callers policy, fun h ↦ by cases h⟩
  have hwarranted := hinv.2 (hinv.1.session hq.ready)
  rwa [hq.idle, items_idle, Finset.union_empty, ← hq.server_eq] at hwarranted

/-- **No ghost subscription.** In every run whose unsubscribe frames are orderly, whatever any thread
does and however often the stream reconnects: in a quiescent state everything in the set of the server
is wanted. -/
theorem server_subset_pending {callers : ℕ} {policy : ReconnectPolicy} {as : List Action}
    (hrun : (machine writable).RunsUnder (Orderly writable) (start callers policy) as d) (hq : d.Quiescent) :
    d.server ⊆ d.pending := hq.server_subset hrun

/-- One of the two subscriptions is taken back. -/
theorem server_subset_pending_unsubscribe :
    ∃ d, (machine isUtf8).RunsUnder (Orderly isUtf8) (start 1 {})
        (earlySubscriptions ++
          [.unsubscribe trades [bytes "TSLA"], .checkReady, .userSend, .deliver]) d ∧
      d.pending.card = 1 ∧ d.server ⊆ d.pending := by
  obtain ⟨d, hd⟩ : ∃ d, (machine isUtf8).check (Orderly isUtf8) (start 1 {})
      (earlySubscriptions ++
        [.unsubscribe trades [bytes "TSLA"], .checkReady, .userSend, .deliver]) = some d :=
    Option.isSome_iff_exists.1 (by decide +kernel)
  have hend : ∀ d ∈ (machine isUtf8).check (Orderly isUtf8) (start 1 {})
      (earlySubscriptions ++
        [.unsubscribe trades [bytes "TSLA"], .checkReady, .userSend, .deliver]),
      Quiescent d ∧ d.pending.card = 1 := by decide +kernel
  have hrun := Machine.runsUnder_iff_check.2 hd
  exact ⟨d, hrun, (hend d hd).2, server_subset_pending hrun (hend d hd).1⟩

/-- An unsubscribe overtakes the replay that still names its symbol: the server sees the unsubscribe
first and keeps what nobody wants. -/
theorem ghost_crossedUnsubscribe :
    ¬ ∀ d, (machine isUtf8).run (start 1 {})
        ([.subscribe trades [bytes "AAPL"], .checkReady] ++ connected ++
          [.onReady, .unsubscribe trades [bytes "AAPL"], .checkReady, .userSend, .sendReplay,
            .base .onReadyReturn, .deliver, .deliver]) = some d →
      d.Quiescent → d.server ⊆ d.pending := by
  have hend : ∃ d ∈ (machine isUtf8).run (start 1 {})
      ([.subscribe trades [bytes "AAPL"], .checkReady] ++ connected ++
        [.onReady, .unsubscribe trades [bytes "AAPL"], .checkReady, .userSend, .sendReplay,
          .base .onReadyReturn, .deliver, .deliver]),
      Quiescent d ∧ ¬ d.server ⊆ d.pending := by decide +kernel
  obtain ⟨d, hd, hquiescent, hghost⟩ := hend
  exact fun h ↦ hghost (h d hd hquiescent)

end DataStream

end Alpaca
