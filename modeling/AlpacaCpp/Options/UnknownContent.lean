import AlpacaCpp.Options.MessageVisitor

/-!
# Unknown content

A map entry under an unknown key should leave no trace in what is delivered. For a key that is a scalar
it leaves none (`Harmless.of_scalar`). A key that is an array or a map may contain strings, though, and
they reach `visit_str` while a key is expected: the last of them selects a field, and the value of the
entry lands in its slot. `delivered_eq_iff_harmless` says which entries can be deleted from a frame
without changing what is delivered.

A message is a function from fields to what their slots hold (`RawMessage.slot`), so that an entry is
one update of that function and a deletion concerns one slot only.
-/

namespace Alpaca

variable {D : Type} [DoubleCasts D]

/-! ### Messages as functions of the field -/

/-- What a slot can hold. -/
inductive SlotValue (D : Type) where
  | text (s : Bytes)
  | time (ns : ℕ)
  | code (n : Int64)
  | number (x : D)
  | list (l : List Bytes)

/-- What a slot makes of a value; `none` when it does not accept it. -/
def accept (f : MessageField) (v : Frame D) : Option (SlotValue D) :=
  match f with
  | .unknown => none
  | .type | .symbol | .text | .exchange | .bidExchange | .askExchange => (asText v).map .text
  | .timestamp => (asTimestamp v).map .time
  | .code => (asCode v).map .code
  | .price | .size | .bidPrice | .bidSize | .askPrice | .askSize => (asNumber v).map .number
  | .conditions => (asConditions v).map .list
  | .trades | .quotes => (asList v).map .list

namespace RawMessage

omit [DoubleCasts D] in
/-- The slot of a field. -/
def slot (m : RawMessage D) : MessageField → SlotValue D
  | .unknown => .text []
  | .type => .text m.type
  | .symbol => .text m.symbol
  | .text => .text m.text
  | .exchange => .text m.exchange
  | .bidExchange => .text m.bidExchange
  | .askExchange => .text m.askExchange
  | .timestamp => .time m.timestamp
  | .code => .code m.code
  | .price => .number m.price
  | .size => .number m.size
  | .bidPrice => .number m.bidPrice
  | .bidSize => .number m.bidSize
  | .askPrice => .number m.askPrice
  | .askSize => .number m.askSize
  | .conditions => .list m.conditions
  | .trades => .list m.trades
  | .quotes => .list m.quotes

omit [DoubleCasts D] in
/-- A message is its slots. -/
theorem ext_slot {m m' : RawMessage D} (h : ∀ f, m.slot f = m'.slot f) : m = m' := by
  cases m
  cases m'
  congr
  exacts [SlotValue.text.inj (h .type), SlotValue.text.inj (h .symbol), SlotValue.text.inj (h .text),
    SlotValue.text.inj (h .exchange), SlotValue.text.inj (h .bidExchange),
    SlotValue.text.inj (h .askExchange), SlotValue.time.inj (h .timestamp),
    SlotValue.code.inj (h .code), SlotValue.number.inj (h .price), SlotValue.number.inj (h .size),
    SlotValue.number.inj (h .bidPrice), SlotValue.number.inj (h .bidSize),
    SlotValue.number.inj (h .askPrice), SlotValue.number.inj (h .askSize),
    SlotValue.list.inj (h .conditions), SlotValue.list.inj (h .trades),
    SlotValue.list.inj (h .quotes)]

/-- **An assignment is one update.** -/
theorem slot_assign (m : RawMessage D) (f g : MessageField) (v : Frame D) :
    (m.assign f v).slot g = if f = g then (accept f v).getD (m.slot g) else m.slot g := by
  cases v with
  | scalar s => cases s <;> cases f <;> cases g <;> rfl
  | array elems => cases f <;> cases g <;> rfl
  | map entries => cases f <;> cases g <;> rfl

/-- One entry, seen from a slot. -/
def slotEnter (f : MessageField) (acc : SlotValue D) (entry : Frame D × Frame D) : SlotValue D :=
  if selectedField entry.1 = f then (accept f entry.2).getD acc else acc

/-- What a slot holds behind entries: the last value of theirs it accepts, or what it held before. -/
theorem slot_foldl_enter (entries : Entries D) (m : RawMessage D) (f : MessageField) :
    (entries.foldl enter m).slot f = entries.foldl (slotEnter f) (m.slot f) := by
  induction entries generalizing m with
  | nil => rfl
  | cons e es ih =>
    rw [List.foldl_cons, List.foldl_cons, ih]
    congr 1
    rw [enter, slot_assign, slotEnter]
    split
    case isTrue h => rw [h]
    case isFalse => rfl

end RawMessage

open RawMessage

/-! ### One entry more or less -/

/-- A later entry of the message overwrites the slot of a field. -/
def Overwritten (f : MessageField) (entries : Entries D) : Prop :=
  ∃ e ∈ entries, selectedField e.1 = f ∧ accept f e.2 ≠ none

/-- Behind entries a slot no longer depends on what it held, or still holds it. -/
theorem foldl_slotEnter_eq_iff (f : MessageField) (entries : Entries D) (a b : SlotValue D) :
    entries.foldl (slotEnter f) a = entries.foldl (slotEnter f) b ↔
      a = b ∨ Overwritten f entries := by
  induction entries generalizing a b with
  | nil => simp [Overwritten]
  | cons e es ih =>
    rw [List.foldl_cons, List.foldl_cons, ih]
    have hcons : Overwritten f (e :: es) ↔
        (selectedField e.1 = f ∧ accept f e.2 ≠ none) ∨ Overwritten f es := by
      simp [Overwritten]
    rw [hcons, slotEnter, slotEnter, ← or_assoc]
    refine or_congr_left ?_
    by_cases h : selectedField e.1 = f
    · rw [if_pos h, if_pos h]
      cases accept f e.2 <;> simp [h]
    · rw [if_neg h, if_neg h]
      simp [h]

/-- What a slot holds behind the entries of a message so far. -/
def held (f : MessageField) (entries : Entries D) : SlotValue D :=
  entries.foldl (slotEnter f) ((clear : RawMessage D).slot f)

/-- An entry that makes no difference: the field its key selects has no slot that accepts its value, or
the slot holds that value already, or a later entry overwrites it. -/
def Harmless (pre : Entries D) (e : Frame D × Frame D) (post : Entries D) : Prop :=
  accept (selectedField e.1) e.2 = none ∨
    accept (selectedField e.1) e.2 = some (held (selectedField e.1) pre) ∨
    Overwritten (selectedField e.1) post

/-- Two messages that differ in one entry are equal if and only if the entry makes no difference. -/
theorem ofAnyEntries_eq_iff (pre : Entries D) (e : Frame D × Frame D) (post : Entries D) :
    ofAnyEntries (pre ++ e :: post) = ofAnyEntries (pre ++ post) ↔ Harmless pre e post := by
  have hslot : ∀ f, (ofAnyEntries (pre ++ e :: post)).slot f = (ofAnyEntries (pre ++ post)).slot f ↔
      slotEnter f (held f pre) e = held f pre ∨ Overwritten f post := by
    intro f
    rw [ofAnyEntries, ofAnyEntries, slot_foldl_enter, slot_foldl_enter, List.foldl_append,
      List.foldl_append, List.foldl_cons, foldl_slotEnter_eq_iff, held]
  have hsame : slotEnter (selectedField e.1) (held (selectedField e.1) pre) e =
      held (selectedField e.1) pre ↔ accept (selectedField e.1) e.2 = none ∨
        accept (selectedField e.1) e.2 = some (held (selectedField e.1) pre) := by
    rw [slotEnter, if_pos rfl]
    cases accept (selectedField e.1) e.2 <;> simp
  rw [Harmless, ← or_assoc, ← hsame, ← hslot]
  constructor
  · exact fun h ↦ by rw [h]
  · refine fun h ↦ ext_slot fun f ↦ ?_
    by_cases hf : selectedField e.1 = f
    · exact hf ▸ h
    · exact (hslot f).2 (.inl (if_neg hf))

/-! ### Frames -/

/-- The frame `t'` is the frame `t` without the entry `e` of one of its messages, the map with the
entries `pre ++ e :: post`. -/
inductive DropsEntry (pre : Entries D) (e : Frame D × Frame D) (post : Entries D) :
    Frame D → Frame D → Prop where
  | map : DropsEntry pre e post (.map (pre ++ e :: post)) (.map (pre ++ post))
  | array (before : List (Frame D)) {t t' : Frame D} (after : List (Frame D)) :
    DropsEntry pre e post t t' →
      DropsEntry pre e post (.array (before ++ t :: after)) (.array (before ++ t' :: after))

omit [DoubleCasts D] in
/-- The outer maps of two lists, in order. -/
theorem elemOuterMaps_append (ts ts' : List (Frame D)) :
    Sax.Tree.elemOuterMaps (ts ++ ts') =
      Sax.Tree.elemOuterMaps ts ++ Sax.Tree.elemOuterMaps ts' := by
  induction ts with
  | nil => rfl
  | cons t ts ih =>
    rw [List.cons_append, Sax.Tree.elemOuterMaps, ih, Sax.Tree.elemOuterMaps, List.append_assoc]

omit [DoubleCasts D] in
/-- Deleting an entry changes one message and leaves the others where they are. -/
theorem DropsEntry.outerMaps {pre post : Entries D} {e : Frame D × Frame D} {t t' : Frame D}
    (h : DropsEntry pre e post t t') :
    ∃ before after, t.outerMaps = before ++ (pre ++ e :: post) :: after ∧
      t'.outerMaps = before ++ (pre ++ post) :: after := by
  induction h with
  | map => exact ⟨[], [], rfl, rfl⟩
  | array front back _ ih =>
    obtain ⟨before, after, ht, ht'⟩ := ih
    refine ⟨Sax.Tree.elemOuterMaps front ++ before, after ++ Sax.Tree.elemOuterMaps back, ?_, ?_⟩ <;>
    simp [Sax.Tree.outerMaps, elemOuterMaps_append, Sax.Tree.elemOuterMaps, ht, ht']

/-- **Which entries are inert.** Deleting an entry from a message of a frame leaves what is delivered
unchanged if and only if the entry is harmless. -/
theorem delivered_eq_iff_harmless (v : MessageVisitor D) {pre post : Entries D}
    {e : Frame D × Frame D} {t t' : Frame D} (h : DropsEntry pre e post t t') :
    (v.drive t).delivered = (v.drive t').delivered ↔ Harmless pre e post := by
  obtain ⟨before, after, ht, ht'⟩ := h.outerMaps
  rw [v.delivered_drive, v.delivered_drive, ht, ht', List.append_cancel_left_eq, List.map_append,
    List.map_append, List.append_cancel_left_eq, List.map_cons, List.map_cons, List.cons_eq_cons,
    ofAnyEntries_eq_iff, and_iff_left rfl]

/-- A scalar under no known key is inert, whatever its value. -/
theorem Harmless.of_scalar {pre post : Entries D} {s : Scalar D} {t : Frame D}
    (hunknown : keyField (.scalar s) = .unknown) : Harmless pre (.scalar s, t) post := by
  refine .inl ?_
  rw [selectedField_scalar, hunknown]
  rfl

open MessageVisitor

/-- A container under an unknown name, behind a price. -/
theorem delivered_unknownName :
    (fresh.drive (.array [.map [(text "p", .scalar (.positiveInteger 3)),
        (text "zz", .array [text "p"])]])).delivered =
      (fresh.drive (.array [.map [(text "p", .scalar (.positiveInteger 3))]])).delivered := by
  have hdrop : DropsEntry [(text "p", .scalar (.positiveInteger 3))] (text "zz", .array [text "p"]) []
      (.array [.map [(text "p", .scalar (.positiveInteger 3)), (text "zz", .array [text "p"])]])
      (.array [.map [(text "p", .scalar (.positiveInteger 3))]]) := .array [] [] .map
  exact (delivered_eq_iff_harmless fresh hdrop).2 (.of_scalar rfl)

/-- A price under an array that holds the name of the slot is taken for the price, though that array is
no known key. -/
theorem delivered_arrayKey :
    keyField (.array [text "p"]) = .unknown ∧
      (fresh.drive (.array [.map [(.array [text "p"], .scalar (.positiveInteger 5))]])).delivered.map
        RawMessage.price = [5] ∧
      (fresh.drive (.array [.map []])).delivered.map RawMessage.price = [0] :=
  ⟨rfl, rfl, rfl⟩

end Alpaca
