import AlpacaCpp.Foundation.Emplace
import AlpacaCpp.Streaming.DataStream
import AlpacaCpp.Streaming.HandleFrame

/-!
# Control frames as text

A change of the subscriptions and a replay are JSON objects: `action`, and under the name of each channel
the array of its symbols. A server reads every key but `action` as a channel and every string under it as
a symbol. `controlOp?_channelsFrame` says that it reads what the client has put there: a frame lists each
channel once, no channel is called `action`, and one without symbols is left out.

`encode` and the parser of the server are libraries. What the subscriptions rely on is
`FrameCodec.Faithful`: a control frame is decoded as it was encoded, and `encode` throws exactly on a
string that `writable` rejects. For a stream that speaks JSON these are `parse`, `dump` and the UTF-8
strings; for one that speaks MessagePack every string is writable.

`plainCodec` has both laws. It writes JSON as `dump` does as long as no string needs an escape, and
refuses the other strings. Split at its quotes, such a text is the list of the strings with the
punctuation between them, and that list is read back from its end, where the punctuation in front of a
string says what the string is.
-/

namespace Alpaca

/-! ### Frames as JSON

`build_frame` and the calls of the user both make such an object, one from all channels and one from a
single change. The meaning of an object is what a server does with it (`controlOp?`): add the pairs,
remove them, or nothing if the action is unknown. -/

/-- The `action` as it is written. -/
def ControlAction.name : ControlAction → Bytes
  | .subscribe => bytes "subscribe"
  | .unsubscribe => bytes "unsubscribe"

namespace Json

variable {D : Type}

/-- The keys of an object. -/
def keys : Json D → List Bytes
  | obj members => members.map Prod.fst
  | _ => []

/-- The strings of an array. -/
def strings : Json D → List Bytes
  | arr elems => elems.filterMap fun e ↦ e.getString.toOption
  | _ => []

/-- The characters of a string. -/
def text : Json D → Bytes
  | str s => s
  | _ => []

/-- The symbols under a channel. -/
def symbolsUnder (j : Json D) (channel : Channel) : Finset Bytes :=
  ((j.member? channel.1).elim [] strings).toFinset

/-- What an object names: every key but `action` is a channel. -/
def items (j : Json D) : Finset (Channel × Bytes) :=
  keyedPairs (j.keys.filterMap fun key ↦
    if h : key ≠ bytes "action" then some (⟨key, h⟩, j.symbolsUnder ⟨key, h⟩) else none)

/-- What a server makes of a control frame. -/
def controlOp? (j : Json D) : Option (SetOp (Channel × Bytes)) :=
  match j.member? (bytes "action") with
  | some (str action) =>
    if action = bytes "subscribe" then some (.add j.items)
    else if action = bytes "unsubscribe" then some (.remove j.items)
    else none
  | _ => none

/-- A member that is there has its key among the keys. -/
theorem mem_keys_of_member? {j v : Json D} {key : Bytes} (h : j.member? key = some v) : key ∈ j.keys := by
  cases j with
  | obj members =>
    obtain ⟨front, back, rfl, -⟩ := List.lookup_eq_some_iff.1 h
    rw [keys, List.map_append]
    exact List.mem_append_right _ List.mem_cons_self
  | _ => cases h

/-- The pairs of a frame are the symbols under its channels. -/
theorem mem_items {j : Json D} {channel : Channel} {x : Bytes} :
    (channel, x) ∈ j.items ↔ x ∈ j.symbolsUnder channel := by
  rw [items, mem_keyedPairs]
  constructor
  · rintro ⟨s, hmem, hx⟩
    obtain ⟨key, -, hkey⟩ := List.mem_filterMap.1 hmem
    split at hkey
    · obtain ⟨rfl, rfl⟩ := Prod.mk.inj (Option.some.inj hkey)
      exact hx
    · cases hkey
  · intro hx
    obtain ⟨v, hv⟩ : ∃ v, j.member? channel.1 = some v := by
      rw [symbolsUnder, List.mem_toFinset] at hx
      rcases hmember : j.member? channel.1 with - | v
      · rw [hmember] at hx
        cases hx
      · exact ⟨v, rfl⟩
    exact ⟨_, List.mem_filterMap.2 ⟨channel.1, mem_keys_of_member? hv, dif_pos channel.2⟩, hx⟩

theorem strings_arr_map_str (l : List Bytes) : strings (arr (l.map str) : Json D) = l := by
  rw [strings, List.filterMap_map]
  exact List.filterMap_some

end Json

section Frames

variable {D : Type}

/-- The frame of a change: `frame["action"] = action; frame[channel] = symbols;` -/
def changeFrame (action : ControlAction) (channel : Channel) (symbols : List Bytes) : Json D :=
  ((Json.obj []).set (bytes "action") (.str action.name)).set channel.1 (.arr (symbols.map .str))

/-- A frame that names channels and their symbols. -/
def channelsFrame (action : ControlAction) (channels : List (Channel × List Bytes)) : Json D :=
  subscriptionFrame action.name (channels.map fun c ↦ (c.1.1, c.2))

theorem changeFrame_eq (action : ControlAction) (channel : Channel) {symbols : List Bytes} (h : symbols ≠ []) :
    (changeFrame action channel symbols : Json D) = channelsFrame action [(channel, symbols)] := by
  rw [channelsFrame, subscriptionFrame, List.map_singleton, List.foldl_cons, List.foldl_nil, Json.setIf, if_pos h,
    changeFrame]

variable {action : ControlAction} {channels : List (Channel × List Bytes)}

/-- What a frame is assigned after its action. -/
def channelEntries (channels : List (Channel × List Bytes)) : List (Bytes × Option (Json D)) :=
  channels.map fun c ↦ (c.1.1, (if c.2 ≠ [] then some c.2 else none).map fun symbols ↦ .arr (symbols.map .str))

/-- A frame is written member by member: the action, then the channels with symbols. -/
theorem channelsFrame_eq (action : ControlAction) (channels : List (Channel × List Bytes)) :
    (channelsFrame action channels : Json D) =
      (channelEntries channels).foldl Json.assign ((Json.obj []).set (bytes "action") (.str action.name)) := by
  rw [channelsFrame, subscriptionFrame, channelEntries, List.foldl_map, List.foldl_map]
  refine congrArg (fun f ↦ List.foldl f _ channels) (funext₂ fun j c ↦ ?_)
  exact Json.setIf_eq_assign j (c.2 ≠ []) c.1.1 (fun symbols ↦ .arr (symbols.map .str)) c.2

/-- A member of a frame is looked up among the channels, or is the action. -/
theorem member?_channelsFrame (hkeys : (channels.map Prod.fst).Nodup) (key : Bytes) :
    (channelsFrame action channels : Json D).member? key =
      ((channelEntries channels).lookup key).elim
        (((Json.obj []).set (bytes "action") (.str action.name)).member? key) id := by
  rw [channelsFrame_eq]
  refine Json.member?_foldl_assign rfl ?_ (fun e he ↦ ?_) key
  · have hnames : ((channels.map Prod.fst).map fun c : Channel ↦ c.1).Nodup := hkeys.map Subtype.val_injective
    rw [List.map_map] at hnames
    rw [channelEntries, List.map_map]
    exact hnames
  · -- No channel is called `action`.
    obtain ⟨c, -, rfl⟩ := List.mem_map.1 he
    rw [Json.member?_set_of_ne c.1.2]
    rfl

/-- No channel takes the place of the action. -/
theorem action_channelsFrame (hkeys : (channels.map Prod.fst).Nodup) :
    (channelsFrame action channels : Json D).member? (bytes "action") = some (.str action.name) := by
  have hnone : (channelEntries channels : List (Bytes × Option (Json D))).lookup (bytes "action") = none := by
    rw [List.lookup_eq_none_iff]
    intro e he
    obtain ⟨c, -, rfl⟩ := List.mem_map.1 he
    exact bne_iff_ne.2 c.1.2.symm
  rw [member?_channelsFrame hkeys, hnone, Option.elim_none]
  exact Json.member?_set_self _ _ _

/-- The symbols under a channel are those it was given. -/
theorem symbolsUnder_channelsFrame (hkeys : (channels.map Prod.fst).Nodup) (channel : Channel) :
    (channelsFrame action channels : Json D).symbolsUnder channel =
      ((channels.lookup channel).getD []).toFinset := by
  have hname : Function.Injective fun c : Channel ↦ c.1 := Subtype.val_injective
  rw [Json.symbolsUnder, member?_channelsFrame hkeys, channelEntries,
    List.lookup_map_of_injective hname (fun symbols : List Bytes ↦
      (if symbols ≠ [] then some symbols else none).map fun symbols ↦ (Json.arr (symbols.map .str) : Json D)),
    Json.member?_set_of_ne channel.2]
  rcases channels.lookup channel with - | symbols
  · rfl
  · by_cases h : symbols = []
    · subst h
      rfl
    · simp [h, Json.strings_arr_map_str]

/-- The change a frame asks for. -/
def ControlAction.op (action : ControlAction) (items : Finset (Channel × Bytes)) : SetOp (Channel × Bytes) :=
  match action with
  | .subscribe => .add items
  | .unsubscribe => .remove items

/-- **A frame names what the client has put there.** -/
theorem items_channelsFrame (hkeys : (channels.map Prod.fst).Nodup) :
    (channelsFrame action channels : Json D).items = keyedPairs (channels.map fun c ↦ (c.1, c.2.toFinset)) := by
  ext ⟨channel, x⟩
  have hfst : ((channels.map fun c ↦ (c.1, c.2.toFinset)).map Prod.fst).Nodup := by
    rw [List.map_map]
    exact hkeys
  have hlookup : (channels.map fun c ↦ (c.1, c.2.toFinset)).lookup channel =
      (channels.lookup channel).map List.toFinset :=
    List.lookup_map_of_injective Function.injective_id List.toFinset channels channel
  rw [Json.mem_items, symbolsUnder_channelsFrame hkeys, mem_keyedPairs_iff_lookup hfst, hlookup]
  rcases channels.lookup channel with - | symbols <;> rfl

/-- **A server reads in a frame what the client has put there.** -/
theorem controlOp?_channelsFrame (hkeys : (channels.map Prod.fst).Nodup) :
    (channelsFrame action channels : Json D).controlOp? =
      some (action.op (keyedPairs (channels.map fun c ↦ (c.1, c.2.toFinset)))) := by
  rw [Json.controlOp?, action_channelsFrame hkeys, items_channelsFrame hkeys]
  cases action <;> rfl

end Frames

/-- How a frame becomes text, and what a server makes of text. -/
structure FrameCodec (D : Type) where
  /-- `encode` of the derived class -/
  encode : Json D → Except Bytes Bytes
  decode : Bytes → Option (Json D)

namespace FrameCodec

variable {D : Type} (codec : FrameCodec D)

/-- Control frames are decoded as they were encoded, and `encode` throws exactly on a string it cannot write.
A frame that names a channel twice keeps only its last symbols, so the second law leaves those out. -/
structure Faithful (writable : Bytes → Bool) : Prop where
  decode_encode : ∀ action channels payload, codec.encode (channelsFrame action channels) = .ok payload →
    codec.decode payload = some (channelsFrame action channels)
  encode_iff : ∀ action channels, (channels.map Prod.fst).Nodup →
    ((∃ payload, codec.encode (channelsFrame action channels) = .ok payload) ↔
      ∀ p ∈ keyedPairs (channels.map fun c ↦ (c.1, c.2.toFinset)), writable p.1.1 = true ∧ writable p.2 = true)

/-- The change a server reads in a text. -/
def op? (payload : Bytes) : Option (SetOp (Channel × Bytes)) := (codec.decode payload).bind Json.controlOp?

/-- A text that a server reads as a frame. -/
def Reads (payload : Bytes) (f : ControlFrame) : Prop := codec.op? payload = some f.op

variable {codec}

/-- What the server does with a frame is what the client meant. -/
theorem Faithful.op? {writable : Bytes → Bool} (h : codec.Faithful writable) {action : ControlAction}
    {channels : List (Channel × List Bytes)} (hkeys : (channels.map Prod.fst).Nodup) {payload : Bytes}
    (hp : codec.encode (channelsFrame action channels) = .ok payload) :
    codec.op? payload = some (action.op (keyedPairs (channels.map fun c ↦ (c.1, c.2.toFinset)))) := by
  rw [FrameCodec.op?, h.decode_encode action channels payload hp]
  exact controlOp?_channelsFrame hkeys

/-- **A server that reads every text as its frame** ends up with what the frames amount to. -/
theorem contents_eq {payloads : List Bytes} {frames : List ControlFrame}
    (h : List.Forall₂ codec.Reads payloads frames) :
    SetOp.contents (payloads.filterMap codec.op?) = DataStream.itemsOf frames := by
  rw [DataStream.itemsOf]
  congr 1
  induction h with
  | nil => rfl
  | cons hread _ ih => rw [List.filterMap_cons_some hread, List.map_cons, ih]

end FrameCodec

/-! ### JSON without escapes

This codec shows that the laws can be met together, and it serves the witnesses. It refuses what it would
have to escape, and nothing is claimed of it for text that it has not written. -/

/-- A string that stands between its quotes as it is. -/
def isPlain (s : Bytes) : Bool := isUtf8 s && s.all fun b ↦ 0x20 ≤ b && b ≠ byte '"' && b ≠ byte '\\'

/-- A plain string has no quote in it. -/
theorem quote_notMem_of_isPlain {s : Bytes} (h : isPlain s = true) : byte '"' ∉ s := by
  intro hmem
  rw [isPlain, Bool.and_eq_true] at h
  have hbyte := List.all_eq_true.1 h.2 _ hmem
  simp at hbyte

section Plain

variable {D : Type}

/-- The strings of an object, each with the punctuation in front of it; `sep` stands in front of the next
key. -/
def stringPairs (sep : Bytes) : List (Bytes × Json D) → List (Bytes × Bytes)
  | [] => []
  | (key, .str s) :: members => (sep, key) :: (bytes ":", s) :: stringPairs (bytes ",") members
  | (key, .arr (e :: elems)) :: members =>
    (sep, key) :: (bytes ":[", e.text) :: elems.map (fun e ↦ (bytes ",", e.text)) ++
      stringPairs (bytes "],") members
  | _ :: members => stringPairs sep members

/-- What stands behind the last string. -/
def closing (members : List (Bytes × Json D)) : Bytes :=
  match members.getLast? with
  | some (_, .arr _) => bytes "]\x7d"
  | _ => bytes "\x7d"

/-- The text between two quotes each, from the first on. -/
def quoteTokens (members : List (Bytes × Json D)) : List Bytes :=
  (stringPairs (bytes "\x7b") members).flatMap (fun p ↦ [p.1, p.2]) ++ [closing members]

/-- `dump` on an object of strings and arrays of strings, where none needs an escape. -/
def plainEncode : Json D → Except Bytes Bytes
  | .obj members =>
    if ∀ p ∈ stringPairs (bytes "\x7b") members, isPlain p.2 = true then
      .ok ([byte '"'].intercalate (quoteTokens members))
    else .error (bytes "not plain")
  | _ => .error (bytes "no object")

/-- What has been read of an object from its end: the members, and of the next one its value, or the elements
behind the one to be read. -/
structure PlainReader (D : Type) where
  elems : List Bytes := []
  value : Option (Json D) := none
  members : List (Bytes × Json D) := []

/-- One string more. -/
def PlainReader.read (pair : Bytes × Bytes) (r : PlainReader D) : PlainReader D :=
  match r.value with
  | some v => { members := (pair.2, v) :: r.members }
  | none =>
    if pair.1 = bytes ":[" then { value := some (.arr ((pair.2 :: r.elems).map .str)), members := r.members }
    else if pair.1 = bytes ":" then { value := some (.str pair.2), members := r.members }
    else { elems := pair.2 :: r.elems, members := r.members }

/-- Punctuation and string in turns. -/
def inPairs : List Bytes → List (Bytes × Bytes)
  | p :: s :: tokens => (p, s) :: inPairs tokens
  | _ => []

/-- `parse` on the text of such an object. -/
def plainDecode (text : Bytes) : Option (Json D) :=
  some (.obj ((inPairs (text.splitOn (byte '"'))).foldr PlainReader.read {}).members)

/-- The two together. -/
def plainCodec (D : Type) : FrameCodec D := ⟨plainEncode, plainDecode⟩

/-- A member of a control frame. -/
inductive PlainMember : Bytes × Json D → Prop
  | action (key s : Bytes) : PlainMember (key, .str s)
  | channel (key s : Bytes) (symbols : List Bytes) : PlainMember (key, .arr ((s :: symbols).map .str))

/-- The strings of an array are read back onto each other. -/
theorem read_elements (symbols : List Bytes) (members : List (Bytes × Json D)) :
    (symbols.map fun s ↦ (bytes ",", s)).foldr PlainReader.read { members := members } =
      { elems := symbols, members := members } := by
  induction symbols with
  | nil => rfl
  | cons s symbols ih =>
    rw [List.map_cons, List.foldr_cons, ih]
    rfl

/-- The object is read back, whatever stands in front of its first key. -/
theorem read_stringPairs {members : List (Bytes × Json D)} (h : ∀ m ∈ members, PlainMember m) (sep : Bytes) :
    (stringPairs sep members).foldr PlainReader.read {} = { members := members } := by
  induction members generalizing sep with
  | nil => rfl
  | cons m members ih =>
    obtain ⟨hm, hmembers⟩ := List.forall_mem_cons.1 h
    cases hm with
    | action key s =>
      rw [stringPairs, List.foldr_cons, List.foldr_cons, ih hmembers]
      rfl
    | channel key s symbols =>
      have helems : ((symbols.map Json.str).map fun e : Json D ↦ (bytes ",", e.text)) =
          symbols.map fun s ↦ (bytes ",", s) := List.map_map
      rw [List.map_cons, stringPairs, List.cons_append, List.cons_append, List.foldr_cons, List.foldr_cons,
        List.foldr_append, ih hmembers, helems, read_elements]
      rfl

/-- Strings come out with the punctuation in front of each. -/
theorem inPairs_tokens (pairs : List (Bytes × Bytes)) (last : Bytes) :
    inPairs (pairs.flatMap (fun p ↦ [p.1, p.2]) ++ [last]) = pairs := by
  induction pairs with
  | nil => rfl
  | cons p pairs ih => exact congrArg (List.cons p) ih

/-- Punctuation has no quotes in it. -/
theorem quote_notMem_punctuation {sep : Bytes} (hsep : byte '"' ∉ sep) (members : List (Bytes × Json D)) :
    ∀ p ∈ stringPairs sep members, byte '"' ∉ p.1 := by
  fun_induction stringPairs sep members with
  | case1 => exact List.forall_mem_nil _
  | case2 sep key s members ih =>
    have hcolon : byte '"' ∉ bytes ":" := by decide
    exact List.forall_mem_cons.2 ⟨hsep, List.forall_mem_cons.2 ⟨hcolon, ih (by decide)⟩⟩
  | case3 sep key e elems members ih =>
    have hopen : byte '"' ∉ bytes ":[" := by decide
    refine List.forall_mem_cons.2 ⟨hsep, List.forall_mem_cons.2 ⟨hopen, ?_⟩⟩
    refine List.forall_mem_append.2 ⟨fun p hp ↦ ?_, ih (by decide)⟩
    obtain ⟨e, -, rfl⟩ := List.mem_map.1 hp
    exact (by decide : byte '"' ∉ bytes ",")
  | case4 sep m members _ _ ih => exact ih hsep

theorem quote_notMem_closing (members : List (Bytes × Json D)) : byte '"' ∉ closing members := by
  rw [closing]
  split <;> decide

/-- **Round trip.** -/
theorem plainDecode_plainEncode {members : List (Bytes × Json D)} (h : ∀ m ∈ members, PlainMember m)
    {payload : Bytes} (hp : plainEncode (.obj members) = .ok payload) :
    plainDecode payload = some (.obj members) := by
  rw [plainEncode] at hp
  split at hp
  case isFalse => cases hp
  case isTrue hplain =>
    obtain rfl := Except.ok.inj hp
    have hquotes : ∀ token ∈ quoteTokens members, byte '"' ∉ token := by
      intro token htoken
      rcases List.mem_append.1 htoken with hpair | hlast
      · obtain ⟨p, hp, hmem⟩ := List.mem_flatMap.1 hpair
        rcases List.mem_pair.1 hmem with rfl | rfl
        · exact quote_notMem_punctuation (by decide) members p hp
        · exact quote_notMem_of_isPlain (hplain p hp)
      · exact List.mem_singleton.1 hlast ▸ quote_notMem_closing members
    have hsome : quoteTokens members ≠ [] := List.append_ne_nil_of_right_ne_nil _ (List.cons_ne_nil _ _)
    rw [plainDecode, List.splitOn_intercalate _ hquotes hsome, quoteTokens, inPairs_tokens, read_stringPairs h]

/-- What the codec looks at: the keys and the strings under them. -/
theorem plain_stringPairs_iff {members : List (Bytes × Json D)} (h : ∀ m ∈ members, PlainMember m)
    (sep : Bytes) :
    (∀ p ∈ stringPairs sep members, isPlain p.2 = true) ↔
      ∀ m ∈ members, isPlain m.1 = true ∧ isPlain m.2.text = true ∧ ∀ s ∈ m.2.strings, isPlain s = true := by
  have hnil : isPlain [] = true := by decide
  induction members generalizing sep with
  | nil => exact iff_of_true (List.forall_mem_nil _) (List.forall_mem_nil _)
  | cons m members ih =>
    obtain ⟨hm, hmembers⟩ := List.forall_mem_cons.1 h
    rw [List.forall_mem_cons]
    cases hm with
    | action key s =>
      rw [stringPairs, List.forall_mem_cons, List.forall_mem_cons]
      constructor
      · rintro ⟨hkey, hs, hrest⟩
        exact ⟨⟨hkey, hs, List.forall_mem_nil _⟩, (ih hmembers _).1 hrest⟩
      · rintro ⟨⟨hkey, hs, -⟩, hrest⟩
        exact ⟨hkey, hs, (ih hmembers _).2 hrest⟩
    -- a channel has a string in front, so that its array is never empty
    | channel key s symbols =>
      rw [Json.strings_arr_map_str, List.map_cons, stringPairs, List.cons_append, List.cons_append,
        List.forall_mem_cons, List.forall_mem_cons, List.forall_mem_append, List.forall_mem_cons]
      have helems : (∀ p ∈ (symbols.map Json.str).map fun e : Json D ↦ (bytes ",", e.text), isPlain p.2 = true) ↔
          ∀ x ∈ symbols, isPlain x = true := by simp [Json.text]
      constructor
      · rintro ⟨hkey, hs, hsymbols, hrest⟩
        exact ⟨⟨hkey, hnil, hs, helems.1 hsymbols⟩, (ih hmembers _).1 hrest⟩
      · rintro ⟨⟨hkey, -, hs, hsymbols⟩, hrest⟩
        exact ⟨hkey, hs, helems.2 hsymbols, (ih hmembers _).2 hrest⟩

end Plain

/-! The frames. -/

section Frames

variable {D : Type} {action : ControlAction} {channels : List (Channel × List Bytes)}

/-- A property of all members is one of a new member and the old ones. -/
theorem forall_setMember {P : Bytes × Json D → Prop} {key : Bytes} {value : Json D}
    {members : List (Bytes × Json D)} (hmembers : ∀ m ∈ members, P m) (hnew : P (key, value)) :
    ∀ m ∈ Json.setMember key value members, P m := by
  induction members with
  | nil => exact List.forall_mem_singleton.2 hnew
  | cons m members ih =>
    obtain ⟨hm, hrest⟩ := List.forall_mem_cons.1 hmembers
    rw [Json.setMember]
    split
    case isTrue heq => exact List.forall_mem_cons.2 ⟨heq ▸ hnew, hrest⟩
    case isFalse =>
      split
      · exact List.forall_mem_cons.2 ⟨hnew, hmembers⟩
      · exact List.forall_mem_cons.2 ⟨hm, ih hrest⟩

/-- The members of a frame are its action and the channels that have symbols. -/
theorem exists_members_channelsFrame (action : ControlAction) (channels : List (Channel × List Bytes)) :
    ∃ members : List (Bytes × Json D), channelsFrame action channels = .obj members ∧
      ∀ m ∈ members, m = (bytes "action", .str action.name) ∨
        ∃ c ∈ channels, c.2 ≠ [] ∧ m = (c.1.1, .arr (c.2.map .str)) := by
  induction channels using List.reverseRecOn with
  | nil => exact ⟨_, rfl, List.forall_mem_singleton.2 (.inl rfl)⟩
  | append_singleton channels c ih =>
    obtain ⟨members, hframe, hmembers⟩ := ih
    have hold : ∀ m ∈ members, m = (bytes "action", .str action.name) ∨
        ∃ c' ∈ channels ++ [c], c'.2 ≠ [] ∧ m = (c'.1.1, .arr (c'.2.map .str)) := fun m hm ↦
      (hmembers m hm).imp_right fun ⟨c', hc', hm⟩ ↦ ⟨c', List.mem_append_left _ hc', hm⟩
    have hset : (channelsFrame action (channels ++ [c]) : Json D) =
        (Json.obj members).setIf (c.2 ≠ []) c.1.1 (.arr (c.2.map .str)) := by
      rw [← hframe, channelsFrame, subscriptionFrame, List.map_append, List.foldl_append]
      rfl
    rw [hset, Json.setIf]
    split
    case isTrue hsymbols =>
      exact ⟨_, rfl, forall_setMember hold
        (.inr ⟨c, List.mem_append_right _ (List.mem_singleton_self c), hsymbols, rfl⟩)⟩
    case isFalse => exact ⟨members, rfl, hold⟩

/-- **The codec has both laws.** -/
theorem faithful_plainCodec (D : Type) : (plainCodec D).Faithful isPlain := by
  have hmember : ∀ action channels, ∃ members : List (Bytes × Json D),
      channelsFrame action channels = .obj members ∧ (∀ m ∈ members, PlainMember m) ∧
        ∀ m ∈ members, m = (bytes "action", .str action.name) ∨
          ∃ c ∈ channels, c.2 ≠ [] ∧ m = (c.1.1, .arr (c.2.map .str)) := by
    intro action channels
    obtain ⟨members, hframe, hmembers⟩ := exists_members_channelsFrame action channels
    refine ⟨members, hframe, fun m hm ↦ ?_, hmembers⟩
    obtain rfl | ⟨⟨c, symbols⟩, -, hsymbols, rfl⟩ := hmembers m hm
    · exact .action _ _
    · obtain ⟨s, rest, rfl⟩ := List.exists_cons_of_ne_nil hsymbols
      exact .channel _ s rest
  constructor
  · intro action channels payload hp
    obtain ⟨members, hframe, hplain, -⟩ := hmember action channels
    rw [hframe] at hp ⊢
    exact plainDecode_plainEncode hplain hp
  · intro action channels hkeys
    obtain ⟨members, hframe, hplain, hmembers⟩ := hmember action channels
    have hencodes : (∃ payload, (plainCodec D).encode (channelsFrame action channels) = .ok payload) ↔
        ∀ p ∈ stringPairs (bytes "\x7b") members, isPlain p.2 = true := by
      rw [hframe]
      show (∃ payload, plainEncode (.obj members) = .ok payload) ↔ _
      rw [plainEncode]
      split
      case isTrue h => exact iff_of_true ⟨_, rfl⟩ h
      case isFalse h => exact iff_of_false (fun ⟨_, hp⟩ ↦ by cases hp) h
    rw [hencodes, plain_stringPairs_iff hplain]
    constructor
    · -- What a server reads under a channel stands in the member of that name.
      rintro h ⟨c, x⟩ hx
      have hitems : (channelsFrame action channels : Json D).items = _ := items_channelsFrame hkeys
      rw [← hitems, Json.mem_items, Json.symbolsUnder, hframe, List.mem_toFinset] at hx
      rcases hmember : (Json.obj members).member? c.1 with - | v
      · rw [hmember] at hx
        cases hx
      · rw [hmember] at hx
        obtain ⟨front, back, rfl, -⟩ := List.lookup_eq_some_iff.1 hmember
        obtain ⟨hkey, -, hstrings⟩ := h (c.1, v) (List.mem_append_right _ List.mem_cons_self)
        exact ⟨hkey, hstrings x hx⟩
    · intro h m hm
      obtain rfl | ⟨c, hc, hsymbols, rfl⟩ := hmembers m hm
      · have hname : isPlain (bytes "action") = true ∧ isPlain action.name = true := by cases action <;> decide
        exact ⟨hname.1, hname.2, List.forall_mem_nil _⟩
      · have hx : ∀ x ∈ c.2, isPlain c.1.1 = true ∧ isPlain x = true := fun x hx ↦
          h (c.1, x) (mem_keyedPairs.2 ⟨_, List.mem_map_of_mem hc, List.mem_toFinset.2 hx⟩)
        obtain ⟨x, hmem⟩ := List.exists_mem_of_ne_nil _ hsymbols
        rw [Json.strings_arr_map_str]
        exact ⟨(hx x hmem).1, (by decide : isPlain [] = true), fun s hs ↦ (hx s hs).2⟩

end Frames

end Alpaca
