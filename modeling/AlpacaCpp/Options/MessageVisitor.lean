import AlpacaCpp.Options.FrameDecoder

/-!
# What the visitor delivers

`RawMessage.ofEntries` says what a message is, slot by slot: the last entry under the slot's key whose
value has a type the slot accepts, and the cleared default when there is none. It does not mention
nesting. **The visitor delivers exactly that**, for every map outside other maps whose keys are scalars
(`drive_delivered`), although all it keeps of the nesting are two counters, a list and a flag. For keys
of any shape an entry acts on the field its key leaves selected (`delivered_drive`).

The proof goes outward. Below a value, or below an element of a kept list, the state is `Inert` and
the tree is walked over (`Inert.skips`); an array under a list slot collects its strings
(`foldl_elemEvents`); a value acts on its slot as `RawMessage.assign` says (`foldl_value`); a key leaves
nothing behind but its field (`foldl_inKey`); entries and messages follow by folding.
`assign_keyField_eq_update` then turns the switches of the code into slots.

**The last entry wins, and a value of the wrong type is no entry.** Both follow from the fold: `slotStep`
changes the slot only where key and type fit. The one exception is `t`, whose extension is taken whatever
its type is and counts as 0 if it is not a timestamp; `asTimestampOnly` is the reading that would leave it
alone, and `RawMessage.ofEntriesWith` is stated for both.
-/

namespace Alpaca

variable {D : Type}

/-- A MessagePack value. -/
abbrev Frame (D : Type) := Sax.Tree (Scalar D)

/-- The entries of a map. -/
abbrev Entries (D : Type) := List (Frame D × Frame D)

/-! ### Messages, slot by slot

A slot of the message has a key and a type, and looks for both among the entries of its map. Nothing here
knows of events or of depths: `lastAccepted` is a fold over the entries, and a value of the wrong type
leaves the slot as it was, so a later entry that fits still counts. -/

/-- Being a given string key. -/
def isKey (key : Bytes) : Frame D → Bool
  | .scalar (.str s) => s = key
  | _ => false

/-- The direct string elements of an array. -/
def strings (elems : List (Frame D)) : List Bytes :=
  elems.filterMap fun
    | .scalar (.str s) => some s
    | _ => none

/-- Text slots accept strings. -/
def asText : Frame D → Option Bytes
  | .scalar (.str s) => some s
  | _ => none

/-- `c` accepts a string, as a single condition, or an array. -/
def asConditions : Frame D → Option (List Bytes)
  | .scalar (.str s) => some [s]
  | .array elems => some (strings elems)
  | _ => none

/-- `trades` and `quotes` accept an array. -/
def asList : Frame D → Option (List Bytes)
  | .array elems => some (strings elems)
  | _ => none

/-- `t` accepts a string or an extension; an extension that is not a timestamp counts as 0. -/
def asTimestamp : Frame D → Option ℕ
  | .scalar (.str s) => some (toNanoseconds s)
  | .scalar (.ext data) => some (timestampFromExt data)
  | _ => none

/-- The stricter reading, by which only a timestamp extension is accepted. -/
def asTimestampOnly : Frame D → Option ℕ
  | .scalar (.str s) => some (toNanoseconds s)
  | .scalar (.ext data) =>
    if data.head? = some 0xFF ∧ (data.length = 5 ∨ data.length = 9 ∨ data.length = 13) then
      some (timestampFromExt data)
    else none
  | _ => none

/-- One entry, seen from the slot with the given key. -/
def slotStep {α : Type} (key : Bytes) (accept : Frame D → Option α) (acc : α)
    (entry : Frame D × Frame D) : α :=
  if isKey key entry.1 then (accept entry.2).getD acc else acc

/-- The last accepted entry under a key. -/
def lastAccepted {α : Type} (key : Bytes) (accept : Frame D → Option α) (default : α)
    (entries : Entries D) : α :=
  entries.foldl (slotStep key accept) default

section Reference

variable [DoubleCasts D]

/-- Prices and sizes accept every number. -/
def asNumber : Frame D → Option D
  | .scalar (.positiveInteger n) => some (DoubleCasts.ofUInt64 n)
  | .scalar (.negativeInteger n) => some (DoubleCasts.ofInt64 n)
  | .scalar (.float32 x) => some x
  | .scalar (.float64 x) => some x
  | _ => none

/-- `code` accepts every number, as a double first. -/
def asCode (v : Frame D) : Option Int64 := (asNumber v).map DoubleCasts.toInt64

/-- The message of a map, for a reading of `t`. -/
def RawMessage.ofEntriesWith (acceptT : Frame D → Option ℕ) (entries : Entries D) :
    RawMessage D where
  type := lastAccepted (bytes "T") asText [] entries
  symbol := lastAccepted (bytes "S") asText [] entries
  text := lastAccepted (bytes "msg") asText [] entries
  exchange := lastAccepted (bytes "x") asText [] entries
  bidExchange := lastAccepted (bytes "bx") asText [] entries
  askExchange := lastAccepted (bytes "ax") asText [] entries
  timestamp := lastAccepted (bytes "t") acceptT 0 entries
  code := lastAccepted (bytes "code") asCode 0 entries
  price := lastAccepted (bytes "p") asNumber DoubleCasts.zero entries
  size := lastAccepted (bytes "s") asNumber DoubleCasts.zero entries
  bidPrice := lastAccepted (bytes "bp") asNumber DoubleCasts.zero entries
  bidSize := lastAccepted (bytes "bs") asNumber DoubleCasts.zero entries
  askPrice := lastAccepted (bytes "ap") asNumber DoubleCasts.zero entries
  askSize := lastAccepted (bytes "as") asNumber DoubleCasts.zero entries
  conditions := lastAccepted (bytes "c") asConditions [] entries
  trades := lastAccepted (bytes "trades") asList [] entries
  quotes := lastAccepted (bytes "quotes") asList [] entries

/-- **The message of a map.** -/
def RawMessage.ofEntries (entries : Entries D) : RawMessage D :=
  RawMessage.ofEntriesWith asTimestamp entries

end Reference

/-! ### Keys

The source switches on the length of a key and then on its bytes. `fieldOf` follows that switch, `keyOf`
is the table it stands for, and the two are inverse to each other outside `unknown`. A key need not be a
string, or even a scalar: what a container as a key selects is found by walking over it (`selectedField`). -/

/-- The wire key of a slot. -/
def keyOf : MessageField → Bytes
  | .unknown => []
  | .type => bytes "T"
  | .symbol => bytes "S"
  | .text => bytes "msg"
  | .exchange => bytes "x"
  | .bidExchange => bytes "bx"
  | .askExchange => bytes "ax"
  | .timestamp => bytes "t"
  | .code => bytes "code"
  | .price => bytes "p"
  | .size => bytes "s"
  | .bidPrice => bytes "bp"
  | .bidSize => bytes "bs"
  | .askPrice => bytes "ap"
  | .askSize => bytes "as"
  | .conditions => bytes "c"
  | .trades => bytes "trades"
  | .quotes => bytes "quotes"

theorem fieldOf_keyOf (f : MessageField) : fieldOf (keyOf f) = f := by cases f <;> rfl

/-- The switch on length and bytes knows no other keys. -/
theorem keyOf_fieldOf {s : Bytes} (h : fieldOf s ≠ .unknown) : keyOf (fieldOf s) = s := by
  revert h
  unfold fieldOf
  split <;> (try split_ifs) <;> intro h
  -- an unknown field, a switch on bytes, or a comparison with a whole key
  all_goals first
    | exact absurd rfl h
    | subst_vars; rfl
    | exact Eq.symm ‹_›

/-- The field a key selects. -/
def keyField : Frame D → MessageField
  | .scalar (.str s) => fieldOf s
  | _ => .unknown

/-- **The switch is a table**: a slot is selected by its key and by nothing else. -/
theorem keyField_eq_iff {f : MessageField} (hf : f ≠ .unknown) (k : Frame D) :
    keyField k = f ↔ isKey (keyOf f) k = true := by
  cases k with
  | scalar s =>
    cases s with
    | str s =>
      rw [keyField, isKey, decide_eq_true_iff]
      constructor
      · rintro rfl
        exact (keyOf_fieldOf hf).symm
      · rintro rfl
        exact fieldOf_keyOf f
    | _ => exact ⟨fun h ↦ absurd h.symm hf, fun h ↦ absurd h (by simp [isKey])⟩
  | array elems => exact ⟨fun h ↦ absurd h.symm hf, fun h ↦ absurd h (by simp [isKey])⟩
  | map entries => exact ⟨fun h ↦ absurd h.symm hf, fun h ↦ absurd h (by simp [isKey])⟩

/-- The field selected so far, and whether a string would still select another one. The first map
inside a key that ends a key of its own settles the matter. -/
def keyStep (st : MessageField × Bool) : Sax.Event (Scalar D) → MessageField × Bool
  | .visit (.str s) => if st.2 then (fieldOf s, true) else st
  | .endMapKey => (st.1, false)
  | _ => st

/-- The field a key of any shape leaves selected. -/
def selectedField (k : Frame D) : MessageField := (k.events.foldl keyStep (.unknown, true)).1

/-- A scalar key selects its own field. -/
theorem selectedField_scalar (s : Scalar D) : selectedField (.scalar s) = keyField (.scalar s) := by
  cases s <;> rfl

/-! ### Lists -/

namespace RawMessage

@[simp] theorem setList_list (m : RawMessage D) (slot : ListSlot) :
    m.setList slot (m.list slot) = m := by cases slot <;> rfl

@[simp] theorem list_setList (m : RawMessage D) (slot : ListSlot) (l : List Bytes) :
    (m.setList slot l).list slot = l := by cases slot <;> rfl

@[simp] theorem setList_setList (m : RawMessage D) (slot : ListSlot) (l l' : List Bytes) :
    (m.setList slot l).setList slot l' = m.setList slot l' := by cases slot <;> rfl

end RawMessage

/-! ### One entry

The switches of the visitor go by the field (`assign`), the meaning goes by the slot (`update`). They
agree entry by entry for a scalar key, which takes a case split over the kinds of values and over the
fields; the fold over the entries then is one fold for each slot. -/

section Entry

variable [DoubleCasts D]

namespace RawMessage

/-- What a value does to a message while a field is selected. -/
def assign (m : RawMessage D) (field : MessageField) : Frame D → RawMessage D
  | .scalar (.str s) => m.string field s
  | .scalar (.positiveInteger n) => m.number field (DoubleCasts.ofUInt64 n)
  | .scalar (.negativeInteger n) => m.number field (DoubleCasts.ofInt64 n)
  | .scalar (.float32 x) => m.number field x
  | .scalar (.float64 x) => m.number field x
  | .scalar (.ext data) =>
    if field = .timestamp then { m with timestamp := timestampFromExt data } else m
  | .array elems =>
    match listFor field with
    | some slot => m.setList slot (strings elems)
    | none => m
  | _ => m

/-- An entry, by the field its key selects. -/
def enter (m : RawMessage D) (entry : Frame D × Frame D) : RawMessage D :=
  m.assign (selectedField entry.1) entry.2

/-- The message of a map whose keys may have any shape. -/
def ofAnyEntries (entries : Entries D) : RawMessage D := entries.foldl enter clear

/-- An entry, slot by slot. -/
def update (m : RawMessage D) (entry : Frame D × Frame D) : RawMessage D where
  type := slotStep (bytes "T") asText m.type entry
  symbol := slotStep (bytes "S") asText m.symbol entry
  text := slotStep (bytes "msg") asText m.text entry
  exchange := slotStep (bytes "x") asText m.exchange entry
  bidExchange := slotStep (bytes "bx") asText m.bidExchange entry
  askExchange := slotStep (bytes "ax") asText m.askExchange entry
  timestamp := slotStep (bytes "t") asTimestamp m.timestamp entry
  code := slotStep (bytes "code") asCode m.code entry
  price := slotStep (bytes "p") asNumber m.price entry
  size := slotStep (bytes "s") asNumber m.size entry
  bidPrice := slotStep (bytes "bp") asNumber m.bidPrice entry
  bidSize := slotStep (bytes "bs") asNumber m.bidSize entry
  askPrice := slotStep (bytes "ap") asNumber m.askPrice entry
  askSize := slotStep (bytes "as") asNumber m.askSize entry
  conditions := slotStep (bytes "c") asConditions m.conditions entry
  trades := slotStep (bytes "trades") asList m.trades entry
  quotes := slotStep (bytes "quotes") asList m.quotes entry

/-- The same, by the selected field. -/
private def updateField (m : RawMessage D) (f : MessageField) (v : Frame D) : RawMessage D where
  type := if f = .type then (asText v).getD m.type else m.type
  symbol := if f = .symbol then (asText v).getD m.symbol else m.symbol
  text := if f = .text then (asText v).getD m.text else m.text
  exchange := if f = .exchange then (asText v).getD m.exchange else m.exchange
  bidExchange := if f = .bidExchange then (asText v).getD m.bidExchange else m.bidExchange
  askExchange := if f = .askExchange then (asText v).getD m.askExchange else m.askExchange
  timestamp := if f = .timestamp then (asTimestamp v).getD m.timestamp else m.timestamp
  code := if f = .code then (asCode v).getD m.code else m.code
  price := if f = .price then (asNumber v).getD m.price else m.price
  size := if f = .size then (asNumber v).getD m.size else m.size
  bidPrice := if f = .bidPrice then (asNumber v).getD m.bidPrice else m.bidPrice
  bidSize := if f = .bidSize then (asNumber v).getD m.bidSize else m.bidSize
  askPrice := if f = .askPrice then (asNumber v).getD m.askPrice else m.askPrice
  askSize := if f = .askSize then (asNumber v).getD m.askSize else m.askSize
  conditions := if f = .conditions then (asConditions v).getD m.conditions else m.conditions
  trades := if f = .trades then (asList v).getD m.trades else m.trades
  quotes := if f = .quotes then (asList v).getD m.quotes else m.quotes

private theorem assign_eq_updateField (m : RawMessage D) (f : MessageField) (v : Frame D) :
    m.assign f v = m.updateField f v := by
  cases v with
  | scalar s => cases s <;> cases f <;> rfl
  | array elems => cases f <;> rfl
  | map entries => cases f <;> rfl

/-- **The switches of the code, as slots.** A value reaches exactly the slot its key names, and only
if the slot accepts it. -/
theorem assign_keyField_eq_update (m : RawMessage D) (k v : Frame D) :
    m.assign (keyField k) v = m.update (k, v) := by
  have hslot : ∀ {α : Type} {f : MessageField} (_ : f ≠ .unknown) (accept : Frame D → Option α)
      (acc : α), (if keyField k = f then (accept v).getD acc else acc) =
        slotStep (keyOf f) accept acc (k, v) := by
    intro α f hf accept acc
    simp only [slotStep, keyField_eq_iff hf]
  rw [assign_eq_updateField, updateField]
  simp (disch := decide) only [hslot]
  rfl

/-- Slots do not influence one another. -/
theorem foldl_update (entries : Entries D) :
    entries.foldl update clear = RawMessage.ofEntries entries := by
  have hfold : ∀ m : RawMessage D, entries.foldl update m = {
      type := entries.foldl (slotStep (bytes "T") asText) m.type
      symbol := entries.foldl (slotStep (bytes "S") asText) m.symbol
      text := entries.foldl (slotStep (bytes "msg") asText) m.text
      exchange := entries.foldl (slotStep (bytes "x") asText) m.exchange
      bidExchange := entries.foldl (slotStep (bytes "bx") asText) m.bidExchange
      askExchange := entries.foldl (slotStep (bytes "ax") asText) m.askExchange
      timestamp := entries.foldl (slotStep (bytes "t") asTimestamp) m.timestamp
      code := entries.foldl (slotStep (bytes "code") asCode) m.code
      price := entries.foldl (slotStep (bytes "p") asNumber) m.price
      size := entries.foldl (slotStep (bytes "s") asNumber) m.size
      bidPrice := entries.foldl (slotStep (bytes "bp") asNumber) m.bidPrice
      bidSize := entries.foldl (slotStep (bytes "bs") asNumber) m.bidSize
      askPrice := entries.foldl (slotStep (bytes "ap") asNumber) m.askPrice
      askSize := entries.foldl (slotStep (bytes "as") asNumber) m.askSize
      conditions := entries.foldl (slotStep (bytes "c") asConditions) m.conditions
      trades := entries.foldl (slotStep (bytes "trades") asList) m.trades
      quotes := entries.foldl (slotStep (bytes "quotes") asList) m.quotes } := by
    -- entry by entry: each acts on the one slot of its key, or on none
    induction entries with
    | nil => exact fun m ↦ rfl
    | cons e es ih => exact fun m ↦ ih (m.update e)
  exact hfold clear

end RawMessage

end Entry

/-! ### Walking over what has no slot

An inert state is below a value. There all four tests of the visitor fail, so that each event moves the
depth and nothing else, and a whole tree leaves the state as it found it. -/

namespace MessageVisitor

variable [DoubleCasts D]

/-- Away from the values of a message only a string can have an effect. -/
theorem visit_eq_self {v : MessageVisitor D} (hvalue : v.atValue = false) (s : Scalar D)
    (hstr : ∀ x, s = .str x → v.visitStr x = v) : v.visit s = v := by
  have hnumber : ∀ x, v.number x = v := by
    intro x
    rw [number, hvalue]
    rfl
  cases s with
  | str x => exact hstr x rfl
  | ext data =>
    show v.visitExt data = v
    rw [visitExt, hvalue]
    rfl
  | positiveInteger i => exact hnumber _
  | negativeInteger i => exact hnumber _
  | float32 x => exact hnumber x
  | float64 x => exact hnumber x
  | _ => rfl

/-- Inside a message, below its values, and not at an element of a kept list. -/
structure Inert (v : MessageVisitor D) : Prop where
  messageDepth_ne : v.messageDepth ≠ 0
  messageDepth_lt : v.messageDepth < v.depth
  noKey : v.expectingKey = false
  noList : v.list = none ∨ v.messageDepth + 1 < v.depth

/-- The visitor `n` levels further down. -/
def down (v : MessageVisitor D) (n : ℕ) : MessageVisitor D := { v with depth := v.depth + n }

/-- Inside a message another map begins no message. -/
theorem startMap_eq_down {v : MessageVisitor D} (h : v.messageDepth ≠ 0) : v.startMap = down v 1 := by
  rw [startMap]
  exact if_neg h

omit [DoubleCasts D] in
/-- Away from the values of a message an array is no list. -/
theorem startArray_eq_down {v : MessageVisitor D} (hvalue : v.atValue = false) :
    v.startArray = down v 1 := by
  rw [startArray, hvalue]
  rfl

/-- **Below a value nothing happens** but counting. -/
theorem Inert.skips {v : MessageVisitor D} (h : Inert v) : Sax.Skips step (down v) := by
  have hlt := h.messageDepth_lt
  have hne := h.messageDepth_ne
  have hvalue : ∀ n, (down v n).atValue = false := by
    intro n
    rw [atValue, decide_eq_false_iff_not]
    rintro ⟨-, hdepth, -⟩
    have : v.depth + n = v.messageDepth := hdepth
    omega
  have hlist : ∀ n, (down v n).inList = false := by
    intro n
    rw [inList, decide_eq_false_iff_not]
    rintro ⟨hlist, hdepth⟩
    have : v.depth + n = v.messageDepth + 1 := hdepth
    rcases h.noList with hnone | hdeep
    · exact hlist hnone
    · omega
  have hkey : ∀ n, (down v n).expectingKey = false := fun _ ↦ h.noKey
  have hdepth : ∀ n, (down v n).depth ≠ (down v n).messageDepth := by
    intro n
    show v.depth + n ≠ v.messageDepth
    omega
  -- one event each, in the order of `Sax.Skips`: all tests of the visitor fail below a value
  refine ⟨?_, ?_, ?_, ?_, ?_, ?_, ?_⟩
  · intro n s
    refine visit_eq_self (hvalue n) s fun x _ ↦ ?_
    rw [visitStr, hkey, hlist, hvalue]
    rfl
  · intro n
    exact startArray_eq_down (hvalue n)
  · intro n
    show (down v (n + 1)).endArray = down v n
    rw [endArray]
    exact if_neg (hdepth n)
  · intro n
    exact startMap_eq_down hne
  · intro n
    show (down v (n + 1)).endMap = down v n
    rw [endMap, if_neg (hdepth (n + 1))]
    rfl
  · intro n
    exact if_neg (hdepth n)
  · intro n
    show { down v n with expectingKey := false } = down v n
    rw [← hkey n]

/-! ### Containers below a value -/

/-- An array that opens in an inert state, whatever state it closes in. -/
theorem Inert.foldl_array {v w : MessageVisitor D} (hstart : v.startArray = w) (h : Inert w)
    (elems : List (Frame D)) : (Sax.Tree.array elems).events.foldl step v = w.endArray := by
  have hskip : (Sax.Tree.elemEvents elems).foldl step w = w := h.skips.foldl_elemEvents elems 0
  rw [Sax.foldl_events_array]
  show ((Sax.Tree.elemEvents elems).foldl step v.startArray).endArray = w.endArray
  rw [hstart, hskip]

/-- Likewise for a map. -/
theorem Inert.foldl_map {v w : MessageVisitor D} (hstart : v.startMap = w) (h : Inert w)
    (entries : Entries D) : (Sax.Tree.map entries).events.foldl step v = w.endMap := by
  have hskip : (Sax.Tree.entryEvents entries).foldl step w = w := h.skips.foldl_entryEvents entries 0
  rw [Sax.foldl_events_map]
  show ((Sax.Tree.entryEvents entries).foldl step v.startMap).endMap = w.endMap
  rw [hstart, hskip]

/-! ### Values

Between two entries the visitor is `Open`: it stands at the depth of its message, expects no key and keeps
no list. Every value starts there and ends there again. An array under a list slot is the one case in
which something happens below a value, and `Collecting` is the state at its elements. -/

/-- Between the entries of a message, or at a value of it. -/
structure Open (v : MessageVisitor D) : Prop where
  messageDepth_ne : v.messageDepth ≠ 0
  depth_eq : v.depth = v.messageDepth
  noKey : v.expectingKey = false
  noList : v.list = none

omit [DoubleCasts D] in
theorem Open.atValue {v : MessageVisitor D} (h : Open v) : v.atValue = true := by
  rw [MessageVisitor.atValue, decide_eq_true_iff]
  exact ⟨h.messageDepth_ne, h.depth_eq, h.noKey⟩

/-- At an element of a list that is kept. -/
structure Collecting (v : MessageVisitor D) (slot : ListSlot) : Prop where
  messageDepth_ne : v.messageDepth ≠ 0
  depth_eq : v.depth = v.messageDepth + 1
  noKey : v.expectingKey = false
  list_eq : v.list = some slot

/-- A string is appended, everything else is walked over. -/
theorem Collecting.foldl_elem {v : MessageVisitor D} {slot : ListSlot} (h : Collecting v slot)
    (t : Frame D) :
    t.events.foldl step v =
      { v with message := v.message.setList slot (v.message.list slot ++ strings [t]) } := by
  have hne := h.messageDepth_ne
  have hdepth := h.depth_eq
  have hvalue : v.atValue = false := by
    rw [MessageVisitor.atValue, decide_eq_false_iff_not]
    rintro ⟨-, heq, -⟩
    omega
  have hinert : Inert (down v 1) := by
    refine ⟨hne, ?_, h.noKey, Or.inr ?_⟩
    · show v.messageDepth < v.depth + 1
      omega
    · show v.messageDepth + 1 < v.depth + 1
      omega
  have hback : (down v 1).depth ≠ (down v 1).messageDepth := by
    show v.depth + 1 ≠ v.messageDepth
    omega
  have hsame : { v with message := v.message.setList slot (v.message.list slot ++ []) } = v := by
    rw [List.append_nil, RawMessage.setList_list]
  cases t with
  | scalar s =>
    show v.visit s = _
    cases s with
    | str s =>
      have hin : v.inList = true := by
        rw [inList, decide_eq_true_iff]
        exact ⟨by simp [h.list_eq], hdepth⟩
      show v.visitStr s = _
      rw [visitStr, h.noKey, hin, h.list_eq]
      rfl
    | _ => exact (visit_eq_self hvalue _ fun x hx ↦ by cases hx).trans hsame.symm
  | array elems =>
    have hstart : v.startArray = down v 1 := startArray_eq_down hvalue
    have hend : (down v 1).endArray = v := by
      rw [endArray]
      refine if_neg ?_
      show v.depth + 1 - 1 ≠ v.messageDepth
      omega
    exact ((hinert.foldl_array hstart elems).trans hend).trans hsame.symm
  | map entries =>
    have hstart : v.startMap = down v 1 := startMap_eq_down hne
    have hend : (down v 1).endMap = v := by
      rw [endMap, if_neg hback]
      rfl
    exact ((hinert.foldl_map hstart entries).trans hend).trans hsame.symm

/-- **A kept list collects its direct strings.** -/
theorem Collecting.foldl_elemEvents {v : MessageVisitor D} {slot : ListSlot}
    (h : Collecting v slot) (elems : List (Frame D)) :
    (Sax.Tree.elemEvents elems).foldl step v =
      { v with message := v.message.setList slot (v.message.list slot ++ strings elems) } := by
  induction elems generalizing v with
  | nil =>
    show v = { v with message := v.message.setList slot (v.message.list slot ++ []) }
    rw [List.append_nil, RawMessage.setList_list]
  | cons t ts ih =>
    have hnext : Collecting
        { v with message := v.message.setList slot (v.message.list slot ++ strings [t]) } slot :=
      ⟨h.messageDepth_ne, h.depth_eq, h.noKey, h.list_eq⟩
    have hstrings : strings (t :: ts) = strings [t] ++ strings ts := by
      show strings ([t] ++ ts) = _
      exact List.filterMap_append
    rw [Sax.foldl_elemEvents_cons, h.foldl_elem, ih hnext, hstrings]
    simp only [RawMessage.list_setList, RawMessage.setList_setList, List.append_assoc]

/-- **A value acts on the slot of the selected field**, and on nothing else. -/
theorem Open.foldl_value {v : MessageVisitor D} (h : Open v) (t : Frame D) :
    t.events.foldl step v = { v with message := v.message.assign v.field t } := by
  have hne := h.messageDepth_ne
  have hdepth := h.depth_eq
  have hvalue := h.atValue
  have hinList : v.inList = false := by
    rw [inList, decide_eq_false_iff_not]
    exact fun hlist ↦ hlist.1 h.noList
  cases t with
  | scalar s =>
    have hnumber : ∀ x, v.number x = { v with message := v.message.number v.field x } := by
      intro x
      rw [number, hvalue]
      rfl
    cases s with
    | str s =>
      show v.visitStr s = _
      rw [visitStr, h.noKey, hinList, hvalue]
      rfl
    | ext data =>
      show v.visitExt data = _
      rw [visitExt, hvalue, RawMessage.assign]
      by_cases hf : v.field = .timestamp
      · rw [if_pos ⟨rfl, hf⟩, if_pos hf]
      · rw [if_neg fun hc ↦ hf hc.2, if_neg hf]
    | positiveInteger i => exact hnumber _
    | negativeInteger i => exact hnumber _
    | float32 x => exact hnumber x
    | float64 x => exact hnumber x
    | _ => rfl
  | array elems =>
    -- whatever the array did to the list, it is closed again behind the array
    have hclose : ∀ w : MessageVisitor D, w.depth = v.depth + 1 → w.messageDepth = v.depth →
        w.endArray = { w with depth := v.depth, list := none } := by
      intro w hw hw'
      have hback : w.depth - 1 = v.depth := by omega
      rw [endArray, hback]
      exact if_pos hw'.symm
    have hsame : ∀ m, { v with message := m, depth := v.depth, list := none } =
        { v with message := m } := by
      intro m
      rw [← h.noList]
    cases hfor : listFor v.field with
    | none =>
      have hstart : v.startArray = { v with list := none, depth := v.depth + 1 } := by
        rw [startArray, hvalue, hfor]
        rfl
      have hinert : Inert { v with list := none, depth := v.depth + 1 } :=
        ⟨hne, by show v.messageDepth < v.depth + 1; omega, h.noKey, Or.inl rfl⟩
      rw [hinert.foldl_array hstart, RawMessage.assign, hfor,
        hclose { v with list := none, depth := v.depth + 1 } rfl hdepth.symm]
      exact hsame v.message
    | some slot =>
      have hstart : v.startArray = { v with
          list := some slot, message := v.message.setList slot [], depth := v.depth + 1 } := by
        rw [startArray, hvalue, hfor]
        rfl
      have hcollect : Collecting { v with
          list := some slot, message := v.message.setList slot [], depth := v.depth + 1 } slot :=
        ⟨hne, congrArg (· + 1) hdepth, h.noKey, rfl⟩
      rw [Sax.foldl_events_array, RawMessage.assign, hfor]
      show ((Sax.Tree.elemEvents elems).foldl step v.startArray).endArray = _
      rw [hstart, hcollect.foldl_elemEvents]
      simp only [RawMessage.list_setList, RawMessage.setList_setList, List.nil_append]
      rw [hclose { v with
        list := some slot, message := v.message.setList slot (strings elems), depth := v.depth + 1 }
        rfl hdepth.symm]
      exact hsame _
  | map entries =>
    have hstart : v.startMap = down v 1 := startMap_eq_down hne
    have hinert : Inert (down v 1) :=
      ⟨hne, by show v.messageDepth < v.depth + 1; omega, h.noKey, Or.inl h.noList⟩
    rw [hinert.foldl_map hstart, endMap, if_neg (by show v.depth + 1 ≠ v.messageDepth; omega)]
    rfl

/-! ### Keys of any shape

While a key is read the message does not change, only the field and the flag that says whether a string
would still select one. The walk over the key is therefore a fold over the pair of them, by `keyStep`. The
flag is lowered at the end of any key, so also at the end of a key of a map inside the key, and strings
behind it count for nothing. -/

/-- At a key, or inside one. -/
structure InKey (v : MessageVisitor D) : Prop where
  messageDepth_ne : v.messageDepth ≠ 0
  messageDepth_le : v.messageDepth ≤ v.depth
  noList : v.list = none
  atKey : v.depth = v.messageDepth → v.expectingKey = true

/-- What a key has come to: the field, and whether a string still counts. -/
def key (v : MessageVisitor D) : MessageField × Bool := (v.field, v.expectingKey)

/-- The visitor after more of a key. -/
def setKey (v : MessageVisitor D) (st : MessageField × Bool) : MessageVisitor D :=
  { v with field := st.1, expectingKey := st.2 }

omit [DoubleCasts D] in
theorem InKey.setKey {v : MessageVisitor D} (h : InKey v) (hlt : v.messageDepth < v.depth)
    (st : MessageField × Bool) : InKey (v.setKey st) :=
  ⟨h.messageDepth_ne, h.messageDepth_le, h.noList, fun heq ↦ absurd heq (Nat.ne_of_gt hlt)⟩

omit [DoubleCasts D] in
/-- A container in a key is one level down, and still inside it. -/
theorem InKey.down {v : MessageVisitor D} (h : InKey v) : InKey (v.down 1) := by
  have hle := h.messageDepth_le
  refine ⟨h.messageDepth_ne, Nat.le_succ_of_le hle, h.noList, fun heq ↦ ?_⟩
  have : v.depth + 1 = v.messageDepth := heq
  omega

omit [DoubleCasts D] in
theorem InKey.atValue {v : MessageVisitor D} (h : InKey v) : v.atValue = false := by
  rw [MessageVisitor.atValue, decide_eq_false_iff_not]
  rintro ⟨-, hdepth, hkey⟩
  exact Bool.false_ne_true (hkey.symm.trans (h.atKey hdepth))

/-- A scalar in a key counts only if it is a string, and in time. -/
theorem InKey.visit {v : MessageVisitor D} (h : InKey v) (s : Scalar D) :
    v.visit s = v.setKey (keyStep v.key (.visit s)) := by
  have hinList : v.inList = false := by
    rw [inList, decide_eq_false_iff_not]
    exact fun hlist ↦ hlist.1 h.noList
  cases s with
  | str s =>
    show v.visitStr s = v.setKey (if v.expectingKey then (fieldOf s, true) else v.key)
    rw [visitStr, hinList, h.atValue]
    cases hkey : v.expectingKey
    · rfl
    · rw [if_pos rfl, if_pos rfl, MessageVisitor.setKey, ← hkey]
  | _ =>
    refine (visit_eq_self h.atValue _ fun x hx ↦ ?_).trans rfl
    cases hx

/-- **A key leaves its field selected**, and nothing else. -/
theorem foldl_inKey :
    Sax.Tree.Cases
      (fun t : Frame D ↦ ∀ v, InKey v →
        t.events.foldl step v = v.setKey (t.events.foldl keyStep v.key))
      (fun ts ↦ ∀ v : MessageVisitor D, InKey v → v.messageDepth < v.depth →
        (Sax.Tree.elemEvents ts).foldl step v =
          v.setKey ((Sax.Tree.elemEvents ts).foldl keyStep v.key))
      (fun es ↦ ∀ v : MessageVisitor D, InKey v → v.messageDepth < v.depth →
        (Sax.Tree.entryEvents es).foldl step v =
          v.setKey ((Sax.Tree.entryEvents es).foldl keyStep v.key)) where
  scalar s v h := h.visit s
  array elems ih v h := by
    have hlt : (v.down 1).messageDepth < (v.down 1).depth := Nat.lt_succ_of_le h.messageDepth_le
    have hstart : v.startArray = v.down 1 := startArray_eq_down h.atValue
    have hend : ∀ st, ((v.down 1).setKey st).endArray = v.setKey st := by
      intro st
      rw [endArray, setKey, ← h.noList]
      exact ite_self _
    rw [Sax.foldl_events_array, Sax.foldl_events_array]
    show ((Sax.Tree.elemEvents elems).foldl step v.startArray).endArray = _
    rw [hstart, ih _ h.down hlt, hend]
    rfl
  map entries ih v h := by
    have hlt : (v.down 1).messageDepth < (v.down 1).depth := Nat.lt_succ_of_le h.messageDepth_le
    have hstart : v.startMap = v.down 1 := startMap_eq_down h.messageDepth_ne
    have hend : ∀ st, ((v.down 1).setKey st).endMap = v.setKey st := by
      intro st
      rw [endMap]
      exact congrArg (fun w : MessageVisitor D ↦ { w with depth := w.depth - 1 })
        (if_neg (Nat.ne_of_gt hlt))
    rw [Sax.foldl_events_map, Sax.foldl_events_map]
    show ((Sax.Tree.entryEvents entries).foldl step v.startMap).endMap = _
    rw [hstart, ih _ h.down hlt, hend]
    rfl
  nil v h hlt := rfl
  cons t ts ht hts v h hlt := by
    rw [Sax.foldl_elemEvents_cons, Sax.foldl_elemEvents_cons, ht v h, hts _ (h.setKey hlt _) hlt]
    rfl
  entryNil v h hlt := rfl
  entryCons k t es hk ht hes v h hlt := by
    -- a map inside the key is deeper than the message, so its keys are not expected as keys
    have hstart : v.startMapKey = v := if_neg (Nat.ne_of_gt hlt)
    rw [Sax.foldl_entryEvents_cons, Sax.foldl_entryEvents_cons]
    show (Sax.Tree.entryEvents es).foldl step (t.events.foldl step
      (k.events.foldl step v.startMapKey).endMapKey) = _
    rw [hstart, hk v h]
    have hend : (v.setKey (k.events.foldl keyStep v.key)).endMapKey =
        v.setKey ((k.events.foldl keyStep v.key).1, false) := rfl
    rw [hend, ht _ (h.setKey hlt _), hes _ ((h.setKey hlt _).setKey hlt _) hlt]
    rfl

/-- A key of any shape selects a field, and nothing is left of it but that. -/
theorem Open.foldl_key {v : MessageVisitor D} (h : Open v) (k : Frame D) :
    (k.events.foldl step v.startMapKey).endMapKey = { v with field := selectedField k } := by
  have hstart : v.startMapKey = { v with field := .unknown, expectingKey := true } :=
    if_pos h.depth_eq
  have hkey : InKey v.startMapKey := by
    rw [hstart]
    exact ⟨h.messageDepth_ne, h.depth_eq.ge, h.noList, fun _ ↦ rfl⟩
  rw [foldl_inKey.tree k _ hkey, hstart, endMapKey, ← h.noKey]
  rfl

/-! ### Entries and messages

Outside messages only a map has an effect: it opens a message, its entries fill the message in, and its
end delivers it. Arrays around it are counted and forgotten, which is why a frame that holds a single map
and one that holds an array of maps are read alike. -/

/-- The entries of a message, one after the other. -/
theorem Open.foldl_entries {v : MessageVisitor D} (h : Open v) (entries : Entries D) :
    ∃ f, (Sax.Tree.entryEvents entries).foldl step v =
      { v with field := f, message := entries.foldl RawMessage.enter v.message } := by
  induction entries generalizing v with
  | nil => exact ⟨v.field, rfl⟩
  | cons e es ih =>
    obtain ⟨k, t⟩ := e
    have hvalue : Open { v with field := selectedField k } :=
      ⟨h.messageDepth_ne, h.depth_eq, h.noKey, h.noList⟩
    have hnext : Open { v with field := selectedField k, message := v.message.enter (k, t) } :=
      ⟨h.messageDepth_ne, h.depth_eq, h.noKey, h.noList⟩
    obtain ⟨f, hf⟩ := ih hnext
    refine ⟨f, ?_⟩
    rw [Sax.foldl_entryEvents_cons]
    show (Sax.Tree.entryEvents es).foldl step (t.events.foldl step
      (k.events.foldl step v.startMapKey).endMapKey) = _
    rw [h.foldl_key, hvalue.foldl_value]
    exact hf

/-- Outside messages. -/
structure Outside (v : MessageVisitor D) : Prop where
  messageDepth_eq : v.messageDepth = 0
  noKey : v.expectingKey = false
  noList : v.list = none

/-- **A map outside messages is delivered**, once and as its entries say. -/
theorem Outside.foldl_map {v : MessageVisitor D} (h : Outside v) (entries : Entries D) :
    ∃ f, (Sax.Tree.map entries).events.foldl step v = { v with
      field := f
      message := RawMessage.ofAnyEntries entries
      delivered := v.delivered ++ [RawMessage.ofAnyEntries entries] } := by
  have hstart : v.startMap = { v with
      depth := v.depth + 1, messageDepth := v.depth + 1, message := RawMessage.clear } :=
    if_pos h.messageDepth_eq
  have hopen : Open { v with
      depth := v.depth + 1, messageDepth := v.depth + 1, message := RawMessage.clear } :=
    ⟨Nat.succ_ne_zero _, rfl, h.noKey, h.noList⟩
  obtain ⟨f, hf⟩ := hopen.foldl_entries entries
  refine ⟨f, ?_⟩
  rw [Sax.foldl_events_map]
  show ((Sax.Tree.entryEvents entries).foldl step v.startMap).endMap = _
  rw [hstart, hf, endMap, if_pos rfl, ← h.messageDepth_eq]
  rfl

/-- A scalar outside messages is walked over. -/
theorem Outside.visit {v : MessageVisitor D} (h : Outside v) (s : Scalar D) : v.visit s = v := by
  have hvalue : v.atValue = false := by
    rw [MessageVisitor.atValue, decide_eq_false_iff_not]
    exact fun hin ↦ hin.1 h.messageDepth_eq
  have hinList : v.inList = false := by
    rw [inList, decide_eq_false_iff_not]
    exact fun hin ↦ hin.1 h.noList
  refine visit_eq_self hvalue s fun x _ ↦ ?_
  rw [visitStr, h.noKey, hinList, hvalue]
  rfl

/-- What a part of a frame outside messages leaves behind: the messages of its outer maps. -/
def Delivers (events : List (Sax.Event (Scalar D))) (messages : List (RawMessage D)) : Prop :=
  ∀ v : MessageVisitor D, Outside v → ∃ f m, events.foldl step v =
    { v with field := f, message := m, delivered := v.delivered ++ messages }

/-- **Outside messages**, every part of a frame delivers its outer maps in document order. -/
theorem delivers_events :
    Sax.Tree.Cases (fun t : Frame D ↦ Delivers t.events (t.outerMaps.map RawMessage.ofAnyEntries))
      (fun ts ↦ Delivers (Sax.Tree.elemEvents ts)
        ((Sax.Tree.elemOuterMaps ts).map RawMessage.ofAnyEntries))
      (fun _ ↦ True) where
  scalar s := by
    intro v h
    refine ⟨v.field, v.message, ?_⟩
    show v.visit s = { v with delivered := v.delivered ++ [] }
    rw [h.visit, List.append_nil]
  array elems ih := by
    intro v h
    have hvalue : v.atValue = false := by
      rw [MessageVisitor.atValue, decide_eq_false_iff_not]
      exact fun hin ↦ hin.1 h.messageDepth_eq
    have hstart : v.startArray = { v with depth := v.depth + 1 } := startArray_eq_down hvalue
    obtain ⟨f, m, hf⟩ := ih { v with depth := v.depth + 1 } ⟨h.messageDepth_eq, h.noKey, h.noList⟩
    refine ⟨f, m, ?_⟩
    rw [Sax.foldl_events_array]
    show ((Sax.Tree.elemEvents elems).foldl step v.startArray).endArray = _
    rw [hstart, hf, endArray, ← h.noList]
    exact ite_self _
  -- an outer map: one message, whatever its entries hold
  map entries _ := by
    intro v h
    obtain ⟨f, hf⟩ := h.foldl_map entries
    exact ⟨f, _, hf⟩
  nil := by
    intro v _
    refine ⟨v.field, v.message, ?_⟩
    show v = { v with delivered := v.delivered ++ [] }
    rw [List.append_nil]
  cons t ts ht hts := by
    intro v h
    rw [Sax.Tree.elemOuterMaps, List.map_append]
    obtain ⟨f, m, hf⟩ := ht v h
    obtain ⟨f', m', hf'⟩ := hts
      { v with
        field := f
        message := m
        delivered := v.delivered ++ t.outerMaps.map RawMessage.ofAnyEntries }
      ⟨h.messageDepth_eq, h.noKey, h.noList⟩
    refine ⟨f', m', ?_⟩
    rw [Sax.foldl_elemEvents_cons, hf, hf', List.append_assoc]
  entryNil := trivial
  entryCons _ _ _ _ _ _ := trivial

/-- **One message for each map that is not inside another map**, in document order, with keys of any
shape, whatever the visitor was left with by the frame before. -/
theorem delivered_drive (v : MessageVisitor D) (frame : Frame D) :
    (v.drive frame).delivered = v.delivered ++ frame.outerMaps.map RawMessage.ofAnyEntries := by
  obtain ⟨f, m, hf⟩ := delivers_events.tree frame v.init ⟨rfl, rfl, rfl⟩
  rw [drive, hf]
  rfl

/-- The keys of a map are scalars. -/
def ScalarKeys (entries : Entries D) : Prop := ∀ e ∈ entries, ∃ s, e.1 = .scalar s

/-- With scalar keys an entry reaches the slot its key names. -/
theorem ScalarKeys.ofAnyEntries_eq {entries : Entries D} (hkeys : ScalarKeys entries) :
    RawMessage.ofAnyEntries entries = RawMessage.ofEntries entries := by
  rw [← RawMessage.foldl_update, RawMessage.ofAnyEntries]
  refine List.foldl_ext _ _ _ fun m e he ↦ ?_
  obtain ⟨k, t⟩ := e
  obtain ⟨s, hs⟩ := hkeys (k, t) he
  obtain rfl : k = .scalar s := hs
  rw [RawMessage.enter, selectedField_scalar, RawMessage.assign_keyField_eq_update]

/-- **Each slot of a message holds the last entry the slot accepts**, when the keys of the map are
scalars. -/
theorem drive_delivered (v : MessageVisitor D) {frame : Frame D}
    (hkeys : ∀ es ∈ frame.outerMaps, ScalarKeys es) :
    (v.drive frame).delivered = v.delivered ++ frame.outerMaps.map RawMessage.ofEntries := by
  rw [delivered_drive, List.map_congr_left fun es hes ↦ (hkeys es hes).ofAnyEntries_eq]

/-! ### Concrete frames

A trade with an unknown nested value among its entries, and a message whose `t` comes twice, the second
time as an extension of another type. -/

/-- A visitor that has seen nothing. -/
def fresh : MessageVisitor ℚ where
  message := .clear
  depth := 0
  messageDepth := 0
  field := .unknown
  list := none
  expectingKey := false
  delivered := []

/-- A MessagePack string. -/
def text (s : String) : Frame ℚ := .scalar (.str (bytes s))

/-- A trade whose unknown field is a map that reuses a known key, and whose conditions hold a deeper
array. -/
def nestedTrade : Frame ℚ :=
  .array [.map [(text "T", text "t"), (text "zz", .map [(text "T", text "q")]),
    (.scalar (.positiveInteger 7), text "N"), (text "p", .scalar (.positiveInteger 3)),
    (text "c", .array [text "S", .array [text "deep"]])]]

/-- A trade with a map and arrays in it. -/
theorem drive_nestedTrade :
    (fresh.drive nestedTrade).delivered = nestedTrade.outerMaps.map RawMessage.ofEntries ∧
      (fresh.drive nestedTrade).delivered.map (fun m ↦ (m.type, m.price, m.conditions)) =
        [(bytes "t", 3, [bytes "S"])] := by
  have hkeys : ∀ es ∈ nestedTrade.outerMaps, ScalarKeys es := by
    intro es hes e he
    obtain rfl := List.mem_singleton.1 hes
    simp only [List.mem_cons, List.not_mem_nil, or_false] at he
    rcases he with rfl | rfl | rfl | rfl | rfl <;> exact ⟨_, rfl⟩
  have hdrive := drive_delivered fresh hkeys
  refine ⟨hdrive, ?_⟩
  rw [hdrive]
  rfl

/-- `t` as text, and again as an extension that is not a timestamp. -/
def retimedEntries : Entries ℚ :=
  [(text "t", text "1970-01-01T00:00:01Z"), (text "t", .scalar (.ext [5, 0]))]

/-- **An extension that is not a timestamp is still accepted for `t`**: it resets the slot, where a
fold that skips it keeps the text before it. -/
theorem drive_retimedEntries :
    (fresh.drive (.map retimedEntries)).delivered.map RawMessage.timestamp = [0] ∧
      ¬∀ (v : MessageVisitor ℚ) (frame : Frame ℚ), (∀ es ∈ frame.outerMaps, ScalarKeys es) →
        (v.drive frame).delivered =
          v.delivered ++ frame.outerMaps.map (RawMessage.ofEntriesWith asTimestampOnly) := by
  have hzero : (fresh.drive (.map retimedEntries)).delivered.map RawMessage.timestamp = [0] := by
    decide +kernel
  refine ⟨hzero, fun h ↦ ?_⟩
  have hkeys : ∀ es ∈ (Sax.Tree.map retimedEntries).outerMaps, ScalarKeys es := by
    intro es hes e he
    obtain rfl := List.mem_singleton.1 hes
    simp only [retimedEntries, List.mem_cons, List.not_mem_nil, or_false] at he
    rcases he with rfl | rfl <;> exact ⟨_, rfl⟩
  rw [h fresh _ hkeys] at hzero
  exact absurd hzero (by decide +kernel)

end MessageVisitor

end Alpaca
