import AlpacaCpp.Core.Numbers
import AlpacaCpp.Trading.OrderNumbers
import Mathlib.Data.List.ReduceOption

/-!
# An order request, read back

`order_request::to_json` and `from_json(order)` were written apart, and nothing but the keys and spellings
they share makes an order of a request. **They do share them** (`Order.exists_recovers`): a request whose
numbers have nine digits behind the point, in whatever combination of set and unset fields, comes back with
its fields and its legs. What both sides have in common is `Sent`, the members that are sent under the keys
that are read.

The numbers are exact here. `decimalToString` prints a rational as `to_string(double)` prints a double of
that value (`decimalToString_value`), and `numeral` reads it back.

The proof meets in the middle, at the object on the wire (`Sent.In`):

* **what is sent**: an order and a leg are written from the same table of members, each there or not, so
  any member is looked up in it (`OrderRequest.member?_toJson`). A multi-leg order sends neither its
  symbol nor its side, so these come back unset;
* **what is read**: every line finds its member, or finds nothing and leaves the field as it is. A string
  is read as itself, an enumerator by its wire form, a number as the text it was printed with
  (`optionalDoubleAt_eq`), and a date of the order is never sent, so it is not there to throw
  (`total_lines`);
* **the order** has each of its fields from one line (`Writes`), and its legs in the order in which they
  were sent.

It is the same for a leg, whose request has no legs of its own.

Nothing is claimed of a price with more digits than nine: `to_string` rounds it, and the order that comes
back has the rounded price. The bound on the size of a number is the buffer of 64 bytes that it is printed
into.
-/

namespace Alpaca

open Decimal

/-! ### Exact numbers

`to_string` prints nine digits behind the point and cuts the zeros at the end. A rational with no more
digits than that loses nothing: it is a whole number of units, and the numeral that is printed has its
value. The bound on its size is the room there is in the buffer. -/

/-- A number that nine digits behind the point print exactly, and that the buffer has room for. -/
structure NineDigits (q : ℚ) : Prop where
  units : ∃ n : ℤ, q * 10 ^ 9 = n
  small : |q| < 10 ^ 40

/-- The units of the ninth place that `"%.9f"` prints. -/
def decimalUnits (q : ℚ) : ℕ := (roundTiesEven (|q| * 10 ^ 9)).toNat

/-- `"%.9f"` of an exact number. -/
def decimalNotation (q : ℚ) : Bytes :=
  (if q < 0 then [byte '-'] else []) ++ padded 1 (decimalUnits q / 10 ^ 9) ++
    byte '.' :: fixed 9 (decimalUnits q % 10 ^ 9)

/-- `to_string(double)` of an exact number. -/
def decimalToString (q : ℚ) : Option Bytes :=
  let text := decimalNotation q
  if text.length = 0 then some [] else (copied (stored 64 text) text.length).map trimZeros

/-- It is what the code does with a double of that value, if it is not the negative zero. -/
theorem decimalToString_value (v : FiniteDouble) (h : v.negative = true → v.value ≠ 0) :
    decimalToString v.value = doubleToString (.finite v) := by
  have hnonneg := v.magnitude_nonneg
  have hunits : decimalUnits v.value = v.units 9 := by
    rw [decimalUnits, FiniteDouble.units, FiniteDouble.value, FiniteDouble.signed]
    split
    · rw [abs_neg, abs_of_nonneg hnonneg]
    · rw [abs_of_nonneg hnonneg]
  have hsign : v.value < 0 ↔ v.negative = true := by
    rw [FiniteDouble.value, FiniteDouble.signed] at h ⊢
    split
    case isTrue hneg =>
      rw [if_pos hneg] at h
      have hne := h hneg
      exact iff_of_true (lt_of_le_of_ne (by linarith) hne) hneg
    case isFalse hpos => exact iff_of_false (not_lt.2 hnonneg) hpos
  have htext : decimalNotation v.value = fixedNotation v := by
    rw [decimalNotation, fixedNotation, hunits]
    simp only [hsign]
  rw [decimalToString, doubleToString, htext]

/-- A number with nine digits is a whole number of units. -/
theorem cast_decimalUnits {q : ℚ} (h : NineDigits q) : (decimalUnits q : ℚ) = |q| * 10 ^ 9 := by
  obtain ⟨n, hn⟩ := h.units
  have habs : |q| * 10 ^ 9 = (|n| : ℤ) := by
    rw [Int.cast_abs, ← hn, abs_mul, abs_of_nonneg (show (0 : ℚ) ≤ 10 ^ 9 by positivity)]
  rw [decimalUnits, habs, roundTiesEven_intCast, ← Int.cast_natCast, Int.toNat_of_nonneg (abs_nonneg n)]

/-- **An exact number is printed exactly.** -/
theorem decimalToString_eq {q : ℚ} (h : NineDigits q) :
    ∃ x : Numeral, decimalToString q = some x.text ∧ x.Plain ∧ x.number = q := by
  obtain ⟨x, htext, hwhole, hnumber⟩ := exists_numeral_of_units (decide (q < 0)) (decimalUnits q)
  simp only [decide_eq_true_eq] at htext hnumber
  have hlength : (decimalNotation q).length =
      (if q < 0 then 1 else 0) + (Nat.log 10 (decimalUnits q / 10 ^ 9) + 1) + 10 := by
    rw [decimalNotation, List.length_append, List.length_append, List.length_cons, length_fixed, padded,
      length_fixed, Nat.max_eq_right (Nat.le_add_left 1 _)]
    split <;> rfl
  have hunits : decimalUnits q < 10 ^ 49 := by
    have hcast : (decimalUnits q : ℚ) < (10 ^ 49 : ℕ) := by
      rw [cast_decimalUnits h]
      push_cast
      linarith [h.small]
    exact_mod_cast hcast
  have hdigits : Nat.log 10 (decimalUnits q / 10 ^ 9) < 40 :=
    Nat.log_lt_of_lt_pow' (by decide) (by omega)
  -- so the text fits the buffer of `to_string`
  have hfits : (decimalNotation q).length < 64 := by
    rw [hlength]
    split <;> omega
  have hvalue : x.number = q := by
    rw [hnumber, cast_decimalUnits h, mul_div_cancel_right₀ _ (by positivity)]
    split
    case isTrue hneg => rw [abs_of_neg hneg, neg_neg]
    case isFalse hpos => exact abs_of_nonneg (not_lt.1 hpos)
  refine ⟨x.trim, ?_, Numeral.plain_trim hwhole, Numeral.number_trim.trans hvalue⟩
  have hcode : decimalToString q =
      (copied (stored 64 (decimalNotation q)) (decimalNotation q).length).map trimZeros :=
    if_neg (by rw [hlength]; omega)
  rw [hcode, copied_of_lt hfits, show decimalNotation q = x.pointed from htext, Option.map_some,
    trimZeros_pointed hwhole]

/-! ### Reading a number back

The value of a numeral is its digits, scaled by the point, with the sign in front. The reader computes it
from the same parts, so this is about lists of digits and not about doubles. -/

theorem ofDigits_digits (ds : List (Fin 10)) : ofDigits (digits ds) = value ds := foldl_digits_sub ds

/-- A sign in front of a digit. -/
theorem signOf_digits {ds : List (Fin 10)} (hds : ds ≠ []) (negative : Bool) (rest : Bytes) :
    signOf (((if negative then [byte '-'] else []) ++ (digits ds ++ rest)).dropWhile isSpace) =
      (negative, digits ds ++ rest) := by
  obtain ⟨d, ds, rfl⟩ := List.exists_cons_of_ne_nil hds
  obtain ⟨hspace, hminus, hplus⟩ := digit_unsigned d
  rcases negative with - | -
  · rw [digits_cons, if_neg Bool.false_ne_true, List.nil_append, List.cons_append,
      List.dropWhile_cons_of_neg (by simp [hspace])]
    simp [signOf, hminus, hplus]
  · rfl

/-- **A numeral denotes its number.** -/
theorem numeral_text {x : Numeral} (h : x.whole ≠ []) : numeral x.text = some x.number := by
  have hdot : ∀ c ∈ (if x.frac = [] then ([] : Bytes) else byte '.' :: digits x.frac).head?,
      ¬IsDigit c := by
    intro c hc
    split at hc
    · cases hc
    · cases hc
      decide
  have hwhole := takeWhile_digits x.whole _ hdot
  have hne : digits x.whole ≠ [] := fun hnil ↦ h (List.map_eq_nil_iff.1 hnil)
  rw [numeral, Numeral.text, Numeral.sign, List.append_assoc, signOf_digits h]
  dsimp only
  rw [hwhole.1, hwhole.2]
  rw [Numeral.number, fraction]
  by_cases hfrac : x.frac = []
  · simp [hfrac, hne, exponentOf, ofDigits_digits]
  · have hbehind := takeWhile_digits x.frac [] (by simp)
    rw [List.append_nil] at hbehind
    have hvalue : ofDigits (digits x.whole ++ digits x.frac) =
        value x.whole * 10 ^ x.frac.length + value x.frac := by
      rw [← digits_append, ofDigits_digits, value_append]
    simp only [hfrac, if_false, List.head?_cons, if_true, List.drop_one, List.tail_cons, hbehind,
      hvalue, exponentOf, Option.map_some, List.append_eq_nil_iff, hne, false_and, length_digits,
      zero_sub, zpow_neg, zpow_natCast, Nat.cast_add, Nat.cast_mul, Nat.cast_pow, Nat.cast_ofNat,
      Option.some_inj]
    split <;> field_simp

/-- What is printed is read back. -/
theorem numeral_decimalToString {q : ℚ} (h : NineDigits q) :
    ∃ s, decimalToString q = some s ∧ s ≠ [] ∧ numeral s = some q := by
  obtain ⟨x, hx, hplain, hnumber⟩ := decimalToString_eq h
  have hempty : numeral [] = none := by decide +kernel
  have hread := numeral_text hplain.whole_ne_nil
  refine ⟨x.text, hx, fun hnil ↦ ?_, hnumber ▸ hread⟩
  rw [hnil, hempty] at hread
  cases hread

/-! ### What is sent

`Sent` is the table that an order and a leg have in common. Each entry is a key with the member that is
sent under it, or with nothing; the object on the wire has the entries that are there, in this order, and
the legs of an order behind them. -/

variable {D : Type}

/-- What is sent of an order or of a leg, under the keys that `from_json` reads. -/
structure Sent (D : Type) where
  symbol : Option Bytes := none
  ratioQty : Option D := none
  side : Option OrderSide := none
  type : Option OrderType := none
  timeInForce : Option TimeInForce := none
  qty : Option D := none
  notional : Option D := none
  limitPrice : Option D := none
  stopPrice : Option D := none
  trailPrice : Option D := none
  trailPercent : Option D := none
  orderClass : Option OrderClass := none
  extendedHours : Option Bool := none
  clientOrderId : Option Bytes := none
  positionIntent : Option PositionIntent := none

/-- The members these are sent in. -/
def Sent.entries (fmt : D → Bytes) (f : Sent D) : List (Bytes × Option (Json D)) :=
  let number (x : D) : Json D := .str (fmt x)
  [(bytes "symbol", f.symbol.map .str),
    (bytes "ratio_qty", f.ratioQty.map number),
    (bytes "side", f.side.map fun x ↦ .str x.toString),
    (bytes "type", f.type.map fun x ↦ .str x.toString),
    (bytes "time_in_force", f.timeInForce.map fun x ↦ .str x.toString),
    (bytes "qty", f.qty.map number),
    (bytes "notional", f.notional.map number),
    (bytes "limit_price", f.limitPrice.map number),
    (bytes "stop_price", f.stopPrice.map number),
    (bytes "trail_price", f.trailPrice.map number),
    (bytes "trail_percent", f.trailPercent.map number),
    (bytes "order_class", f.orderClass.map fun x ↦ .str x.toString),
    (bytes "extended_hours", f.extendedHours.map .bool),
    (bytes "client_order_id", f.clientOrderId.map .str),
    (bytes "position_intent", f.positionIntent.map fun x ↦ .str x.toString)]

/-- What a request sends. -/
def OrderRequest.sent (r : OrderRequest D) : Sent D where
  symbol := if ¬r.orderClass = some .mleg then some r.symbol else none
  side := if ¬r.orderClass = some .mleg ∧ r.side ≠ .unknown then some r.side else none
  type := if r.type ≠ .unknown then some r.type else none
  timeInForce := some r.timeInForce
  qty := r.qty
  notional := r.notional
  limitPrice := r.limitPrice
  stopPrice := r.stopPrice
  trailPrice := r.trailPrice
  trailPercent := r.trailPercent
  orderClass := r.orderClass
  extendedHours := r.extendedHours
  clientOrderId := r.clientOrderId
  positionIntent := r.positionIntent

/-- The type that is not sent is the one that an order begins with. -/
theorem OrderRequest.getD_sent_type (r : OrderRequest D) : r.sent.type.getD .unknown = r.type := by
  show (if r.type ≠ .unknown then some r.type else none).getD .unknown = r.type
  split_ifs with htype
  · rfl
  · exact (not_not.1 htype).symm

theorem OrderRequest.getD_sent_symbol (r : OrderRequest D) :
    r.sent.symbol.getD [] = if r.orderClass = some .mleg then [] else r.symbol := by
  show (if ¬r.orderClass = some .mleg then some r.symbol else none).getD [] = _
  split_ifs <;> rfl

/-- A multi-leg order sends no side. -/
theorem OrderRequest.getD_sent_side (r : OrderRequest D) :
    r.sent.side.getD .unknown = if r.orderClass = some .mleg then .unknown else r.side := by
  show (if ¬r.orderClass = some .mleg ∧ r.side ≠ .unknown then some r.side else none).getD .unknown = _
  split_ifs with hside hmleg hmleg
  · exact absurd hmleg hside.1
  · rfl
  · rfl
  · exact (not_not.1 fun hne ↦ hside ⟨hmleg, hne⟩).symm

/-- What a leg sends. -/
def OrderLegRequest.sent (r : OrderLegRequest D) : Sent D where
  symbol := some r.symbol
  ratioQty := some r.ratioQty
  side := some r.side
  positionIntent := r.positionIntent

/-- The members of a request that are objects or arrays. -/
def OrderRequest.nested (fmt : D → Bytes) (r : OrderRequest D) : List (Bytes × Option (Json D)) :=
  [(bytes "take_profit", r.takeProfit.map (TakeProfitRequest.toJson fmt)),
    (bytes "stop_loss", r.stopLoss.map (StopLossRequest.toJson fmt)),
    (bytes "legs", (if r.legs ≠ [] then some r.legs else none).map fun legs ↦
      .arr (legs.map (OrderLegRequest.toJson fmt)))]

/-- **A request is written member by member**, from one table. -/
theorem OrderRequest.toJson_eq (fmt : D → Bytes) (r : OrderRequest D) :
    r.toJson fmt = Json.assignAll (r.sent.entries fmt ++ r.nested fmt) := by
  rw [toJson]
  simp only [Json.setOption_eq_assign, Json.set_eq_assign]
  rw [Json.setIf_eq_assign _ _ _ Json.str r.symbol,
    Json.setIf_eq_assign _ _ _ (fun x : OrderSide ↦ .str x.toString) r.side,
    Json.setIf_eq_assign _ _ _ (fun x : OrderType ↦ .str x.toString) r.type,
    Json.setIf_eq_assign _ _ _ (fun legs ↦ .arr (legs.map (OrderLegRequest.toJson fmt))) r.legs]
  rfl

/-- A leg is written from the same table. -/
theorem OrderLegRequest.toJson_eq (fmt : D → Bytes) (r : OrderLegRequest D) :
    r.toJson fmt = Json.assignAll (r.sent.entries fmt) := by
  rw [toJson]
  simp only [Json.setOption_eq_assign, Json.set_eq_assign]
  rfl

/-! ### What arrives

A key of the table is looked up in the object by looking it up in the table, since no key comes twice and
the keys of what is nested are others. From here on the object is only known through `Sent.In`. -/

/-- The keys `from_json` does not look under, but for the legs. -/
def nestedKeys : List Bytes := [bytes "take_profit", bytes "stop_loss", bytes "legs"]

/-- A value has the members that are sent, and no others but nested ones. -/
def Sent.In (fmt : D → Bytes) (f : Sent D) (j : Json D) : Prop :=
  ∀ key ∉ nestedKeys, j.member? key = ((f.entries fmt).lookup key).join

/-- No key is written twice. -/
theorem Sent.nodup_entries (fmt : D → Bytes) (f : Sent D) :
    ((f.entries fmt).map Prod.fst ++ nestedKeys).Nodup := by
  show ([bytes "symbol", bytes "ratio_qty", bytes "side", bytes "type", bytes "time_in_force", bytes "qty",
    bytes "notional", bytes "limit_price", bytes "stop_price", bytes "trail_price", bytes "trail_percent",
    bytes "order_class", bytes "extended_hours", bytes "client_order_id", bytes "position_intent",
    bytes "take_profit", bytes "stop_loss", bytes "legs"] : List Bytes).Nodup
  decide +kernel

/-- The members of a request. -/
theorem OrderRequest.member?_toJson (fmt : D → Bytes) (r : OrderRequest D) (key : Bytes) :
    (r.toJson fmt).member? key = ((r.sent.entries fmt ++ r.nested fmt).lookup key).join := by
  rw [toJson_eq]
  refine Json.member?_assignAll ?_ key
  rw [List.map_append]
  exact r.sent.nodup_entries fmt

/-- What an order sends is in its JSON. -/
theorem OrderRequest.sent_in (fmt : D → Bytes) (r : OrderRequest D) : r.sent.In fmt (r.toJson fmt) := by
  intro key hkey
  have hnested : (r.nested fmt).lookup key = none := by
    rw [List.lookup_eq_none_iff]
    exact fun e he ↦ bne_iff_ne.2 fun heq ↦ hkey (heq ▸ List.mem_map_of_mem (f := Prod.fst) he)
  rw [member?_toJson, List.lookup_append, hnested, Option.or_none]

/-- So are its legs. -/
theorem OrderRequest.legValues_toJson (fmt : D → Bytes) (r : OrderRequest D) :
    (r.toJson fmt).legValues = r.legs.map (OrderLegRequest.toJson fmt) := by
  have hlegs : (r.toJson fmt).member? (bytes "legs") =
      (if r.legs ≠ [] then some r.legs else none).map fun legs ↦
        .arr (legs.map (OrderLegRequest.toJson fmt)) := r.member?_toJson fmt (bytes "legs")
  rw [Json.legValues, hlegs]
  rcases r.legs with - | ⟨leg, legs⟩ <;> rfl

/-- The members of a leg. -/
theorem OrderLegRequest.member?_toJson (fmt : D → Bytes) (r : OrderLegRequest D) (key : Bytes) :
    (r.toJson fmt).member? key = ((r.sent.entries fmt).lookup key).join := by
  rw [toJson_eq]
  exact Json.member?_assignAll (List.Nodup.of_append_left (r.sent.nodup_entries fmt)) key

theorem OrderLegRequest.sent_in (fmt : D → Bytes) (r : OrderLegRequest D) :
    r.sent.In fmt (r.toJson fmt) := fun key _ ↦ r.member?_toJson fmt key

theorem OrderLegRequest.legValues_toJson (fmt : D → Bytes) (r : OrderLegRequest D) :
    (r.toJson fmt).legValues = [] := by
  have hlegs : (r.toJson fmt).member? (bytes "legs") = none := r.member?_toJson fmt (bytes "legs")
  rw [Json.legValues, hlegs]

/-! ### What is read of it

The lines of `from_json` are gone through once, and each is told from the table what it finds. A line
whose key is not in the table finds nothing; most fields of an order are of this kind, for only the server
fills them in. -/

namespace Order

variable [Doubles D] {lib : JsonLibrary D} {fmt : D → Bytes} {f : Sent D} {j : Json D} {o : Order D}

/-- The numbers of an order, with their keys, as they are sent. -/
def sentNumbers (f : Sent D) : List (Bytes × Option D) :=
  [(bytes "qty", f.qty), (bytes "notional", f.notional), (bytes "filled_avg_price", none),
    (bytes "limit_price", f.limitPrice), (bytes "stop_price", f.stopPrice),
    (bytes "trail_price", f.trailPrice), (bytes "trail_percent", f.trailPercent), (bytes "hwm", none),
    (bytes "ratio_qty", f.ratioQty)]

/-- A number that is printed and read back. -/
def ReadsBack (fmt : D → Bytes) (x : D) : Prop := fmt x ≠ [] ∧ Doubles.stod (fmt x) = some x

omit [Doubles D] in
/-- A number is sent as a string. -/
theorem member?_number (hj : f.In fmt j) {e : Bytes × Option D} (he : e ∈ sentNumbers f) :
    j.member? e.1 = e.2.map fun x ↦ .str (fmt x) := by
  simp only [sentNumbers, List.mem_cons, List.not_mem_nil, or_false] at he
  rcases he with rfl | rfl | rfl | rfl | rfl | rfl | rfl | rfl | rfl
  all_goals
    dsimp only
    exact hj _ (by decide)

/-- A number is read as it was sent. -/
theorem doubleFromJson_str {x : D} (h : ReadsBack fmt x) : doubleFromJson lib j (.str (fmt x)) = .ok x := by
  simp [doubleFromJson, Json.getString, h.1, h.2, bind, Except.bind, pure, Except.pure, orLog]

/-- **A number is read as the one that was sent.** -/
theorem optionalDoubleAt_eq {key : Bytes} {value : Option D}
    (hmember : j.member? key = value.map fun x ↦ .str (fmt x)) (hvalue : ∀ x ∈ value, ReadsBack fmt x) :
    optionalDoubleAt lib j key = value := by
  rw [optionalDoubleAt, hmember]
  rcases value with - | x
  · rfl
  · rw [Option.map_some, Option.bind_some, doubleFromJson_str (hvalue x rfl)]
    rfl

/-- Reading a number that was sent does not throw. -/
theorem total_number {key : Bytes} {value : Option D}
    (hmember : j.member? key = value.map fun x ↦ .str (fmt x)) (hvalue : ∀ x ∈ value, ReadsBack fmt x)
    (assign : Order D → Option D → Order D) : (readOptionalDouble lib key assign).Total j := by
  refine total_readOptionalDouble_of_reads lib (fun v hv ↦ ?_) assign
  rw [hmember, Option.map_eq_some_iff] at hv
  obtain ⟨x, hx, rfl⟩ := hv
  exact ⟨x, doubleFromJson_str (hvalue x hx)⟩

omit [Doubles D] in
/-- Everything but a flag is sent as a string. -/
theorem isString_of_member? (hj : f.In fmt j) {key : Bytes}
    (hkey : key ∉ bytes "extended_hours" :: nestedKeys) {v : Json D} (hv : j.member? key = some v) :
    ∃ s, v = .str s := by
  rw [List.mem_cons, not_or] at hkey
  rw [hj key hkey.2, Option.join_eq_some_iff] at hv
  obtain ⟨front, back, hsplit, -⟩ := List.lookup_eq_some_iff.1 hv
  have hmem : (key, some v) ∈ f.entries fmt := by
    rw [hsplit]
    exact List.mem_append_right _ List.mem_cons_self
  simp only [Sent.entries, List.mem_cons, List.not_mem_nil, or_false, Prod.mk.injEq] at hmem
  have hflag : ∀ p : Prop, ¬(key = bytes "extended_hours" ∧ p) := fun _ h ↦ hkey.1 h.1
  simp only [hflag, false_or, eq_comm (a := some v), Option.map_eq_some_iff] at hmem
  rcases hmem with ⟨-, x, -, rfl⟩ | ⟨-, x, -, rfl⟩ | ⟨-, x, -, rfl⟩ | ⟨-, x, -, rfl⟩ |
    ⟨-, x, -, rfl⟩ | ⟨-, x, -, rfl⟩ | ⟨-, x, -, rfl⟩ | ⟨-, x, -, rfl⟩ | ⟨-, x, -, rfl⟩ |
    ⟨-, x, -, rfl⟩ | ⟨-, x, -, rfl⟩ | ⟨-, x, -, rfl⟩ | ⟨-, x, -, rfl⟩ | ⟨-, x, -, rfl⟩ <;>
      exact ⟨_, rfl⟩

omit [Doubles D] in
/-- So a line that reads text returns. -/
theorem total_text (hj : f.In fmt j) {key : Bytes} (hkey : key ∉ bytes "extended_hours" :: nestedKeys)
    {α : Type} {get : Json D → Except Bytes α} (hget : ∀ s, ∃ a, get (.str s) = .ok a)
    (assign : Order D → α → Order D) : (readVariable lib key get assign).Total j := by
  refine total_readVariable_of_reads lib (fun v hv ↦ ?_) assign
  obtain ⟨s, rfl⟩ := isString_of_member? hj hkey hv
  exact hget s

/-- **Reading never throws**, whatever the library makes of the object. -/
theorem total_lines (hj : f.In fmt j) (hnumbers : ∀ e ∈ sentNumbers f, ∀ x ∈ e.2, ReadsBack fmt x) :
    (fromLines (lines lib)).Total j := by
  have hstring : ∀ key ∉ bytes "extended_hours" :: nestedKeys, ∀ assign : Order D → Bytes → Order D,
      (readVariable lib key Json.getString assign).Total j := fun key hkey ↦
    total_text hj hkey fun s ↦ ⟨s, rfl⟩
  have henum : ∀ (α : Type) (key : Bytes), key ∉ bytes "extended_hours" :: nestedKeys →
      ∀ (converter : Bytes → α) (assign : Order D → α → Order D),
        (readEnum lib key converter assign).Total j := fun α key hkey converter ↦
    total_text hj hkey fun s ↦ ⟨converter s, rfl⟩
  have hnumber : ∀ e ∈ sentNumbers f, ∀ assign, (readOptionalDouble lib e.1 assign).Total j := fun e he ↦
    total_number (member?_number hj he) (hnumbers e he)
  -- no request has a date of an order
  have hdate : ∀ key ∈ timestampKeys (D := D), ∀ assign : Order D → ℕ → Order D,
      (readTimestamp key assign).Total j := by
    intro key hkey
    refine total_readTimestamp_of_absent ?_
    simp only [timestampKeys, timestampFields, List.map_cons, List.map_nil, List.mem_cons, List.not_mem_nil,
      or_false] at hkey
    rcases hkey with rfl | rfl | rfl | rfl | rfl | rfl | rfl | rfl | rfl <;> exact hj _ (by decide)
  simp only [sentNumbers, List.forall_mem_cons] at hnumber
  simp only [timestampKeys, timestampFields, List.map_cons, List.map_nil, List.forall_mem_cons] at hdate
  apply total_fromLines
  simp only [lines, linesBefore, linesBehind, timestampFields, List.map_cons, List.map_nil,
    List.cons_append, List.nil_append, List.forall_mem_cons]
  simp (disch := decide) [hstring, henum, hnumber, hdate, total_readBool]
  exact total_readDouble_of_absent lib (hj (bytes "filled_qty") (by decide)) _

omit [Doubles D] in
/-- What is sent as a string is read from that string. -/
theorem variableAt_eq {α : Type} {key : Bytes} {get : Json D → Except Bytes α} {render : α → Bytes}
    (hget : ∀ x, get (.str (render x)) = .ok x) {value : Option α}
    (hmember : j.member? key = value.map fun x ↦ .str (render x)) : j.variableAt key get = value := by
  rw [Json.variableAt, hmember]
  rcases value with - | x
  · rfl
  · rw [Option.map_some, Option.bind_some, hget]
    rfl

/-- A line and a field it writes, which no other line writes. -/
structure Writes {α : Type} (lib : JsonLibrary D) (j : Json D) (key : Bytes) (get : Json D → Except Bytes α)
    (field : Order D → α) : Prop where
  exists_line : ∃ assign, readVariable lib key get assign ∈ lines lib ∧ ∀ o x, field (assign o x) = x
  alone : ∀ line ∈ lines lib, line.Reads j (fun o ↦ some (field o)) none ∨
    line.Reads j (fun o ↦ some (field o)) (j.variableAt key get)

/-- A field that is sent arrives, and one that is not keeps its default. -/
theorem Writes.getD {α : Type} {key : Bytes} {get : Json D → Except Bytes α} {field : Order D → α}
    (hwrites : Writes lib j key get field) {render : α → Bytes}
    (hget : ∀ x, get (.str (render x)) = .ok x) {value : Option α}
    (hmember : j.member? key = value.map fun x ↦ .str (render x))
    (h : fromLines (lines lib) j empty = .ok o) : field o = value.getD (field empty) := by
  obtain ⟨assign, hmem, hassign⟩ := hwrites.exists_line
  have hread := fromLines_getD hwrites.alone hmem
    (reads_readVariable fun o x ↦ congrArg some (hassign o x)) h
  rw [hread, variableAt_eq hget hmember]

/-- The text fields that requests have. -/
theorem writes_lines (lib : JsonLibrary D) (j : Json D) :
    Writes lib j (bytes "client_order_id") Json.getString Order.clientOrderId ∧
      Writes lib j (bytes "symbol") Json.getString Order.symbol ∧
      Writes lib j (bytes "side") (fun v ↦ v.getString.map toOrderSide) Order.side ∧
      Writes lib j (bytes "type") (fun v ↦ v.getString.map toOrderType) Order.type ∧
      Writes lib j (bytes "order_class") (fun v ↦ v.getString.map toOrderClass) Order.orderClass ∧
      Writes lib j (bytes "time_in_force") (fun v ↦ v.getString.map toTimeInForce) Order.timeInForce ∧
      Writes lib j (bytes "position_intent") (fun v ↦ v.getString.map toPositionIntent)
        Order.positionIntent := by
  refine ⟨⟨⟨fun o x ↦ { o with clientOrderId := x }, ?_, fun _ _ ↦ rfl⟩, ?_⟩,
    ⟨⟨fun o x ↦ { o with symbol := x }, ?_, fun _ _ ↦ rfl⟩, ?_⟩,
    ⟨⟨fun o x ↦ { o with side := x }, ?_, fun _ _ ↦ rfl⟩, ?_⟩,
    ⟨⟨fun o x ↦ { o with type := x }, ?_, fun _ _ ↦ rfl⟩, ?_⟩,
    ⟨⟨fun o x ↦ { o with orderClass := x }, ?_, fun _ _ ↦ rfl⟩, ?_⟩,
    ⟨⟨fun o x ↦ { o with timeInForce := x }, ?_, fun _ _ ↦ rfl⟩, ?_⟩,
    ⟨⟨fun o x ↦ { o with positionIntent := x }, ?_, fun _ _ ↦ rfl⟩, ?_⟩⟩
  all_goals
    simp only [lines, linesBefore, linesBehind, timestampFields, List.map_cons, List.map_nil,
      List.cons_append, List.nil_append, List.forall_mem_cons, readEnum]
    simp [reads_readVariable]

/-- The line of the flag. -/
theorem extendedHours_of_fromLines (h : fromLines (lines lib) j empty = .ok o) :
    o.extendedHours = ((j.member? (bytes "extended_hours")).map boolFromJson).getD false := by
  have hflag : (readBool (bytes "extended_hours") fun (o : Order D) x ↦ { o with extendedHours := x }).Reads j
      (fun o ↦ some o.extendedHours) ((j.member? (bytes "extended_hours")).map boolFromJson) :=
    reads_readBool fun _ _ ↦ rfl
  refine fromLines_getD ?_ (by simp [lines, linesBefore]) hflag h
  simp only [lines, linesBefore, linesBehind, timestampFields, List.map_cons, List.map_nil,
    List.cons_append, List.nil_append, List.forall_mem_cons]
  simp [reads_readBool]

/-! ### The whole order

An order is read with its legs, and a leg is an order that has none. So the result for an object without
legs comes first (`received_of_fromJson`), and is used for the order itself and for every leg. -/

/-- An order is read when its lines and its legs are. -/
theorem exists_fromJson (hlines : (fromLines (lines lib)).Total j)
    (hlegs : ∀ legJson ∈ j.legValues, ∃ leg, fromJson lib legJson empty = .ok leg) :
    ∃ o, fromJson lib j empty = .ok o := by
  have hread : ∀ elems : List (Json D), (∀ legJson ∈ elems, ∃ leg, fromJson lib legJson empty = .ok leg) →
      ∃ legs, readLegs lib elems = .ok legs := by
    intro elems helems
    induction elems with
    | nil => exact ⟨[], rfl⟩
    | cons legJson rest ih =>
      rw [List.forall_mem_cons] at helems
      obtain ⟨leg, hleg⟩ := helems.1
      obtain ⟨legs, hrest⟩ := ih helems.2
      exact ⟨leg :: legs, by rw [readLegs, hleg, hrest]; rfl⟩
  cases j with
  | obj members =>
    rw [fromJson, exists_bind_eq_ok]
    obtain ⟨o, ho⟩ := hlines empty
    refine ⟨o, ho, (exists_bind_eq_ok_of_total fun legs ↦ by cases legs <;> exact ⟨_, rfl⟩).2 ?_⟩
    rw [legsIn_eq]
    rw [Json.legValues, Json.member?] at hlegs
    rcases hfound : members.lookup (bytes "legs") with - | v
    · exact ⟨none, rfl⟩
    · rw [hfound] at hlegs
      cases v with
      | arr elems =>
        obtain ⟨legs, hlegs⟩ := hread elems hlegs
        exact ⟨some legs, by rw [Option.elim_some, legsOf, hlegs]; rfl⟩
      | _ => exact ⟨none, rfl⟩
  | _ => exact hlines empty

/-- The numbers, one by one. -/
theorem numbers_of_fromJson (hj : f.In fmt j) (hnumbers : ∀ e ∈ sentNumbers f, ∀ x ∈ e.2, ReadsBack fmt x)
    (h : fromJson lib j empty = .ok o) :
    List.Forall₂ (fun field e ↦ field.get o = e.2) numberFields (sentNumbers f) := by
  have hkeys : List.Forall₂ (fun field e ↦ field ∈ numberFields (D := D) ∧ e ∈ sentNumbers f ∧ field.key = e.1)
      numberFields (sentNumbers f) := by simp [numberFields, sentNumbers]
  refine hkeys.imp fun field e hboth ↦ ?_
  obtain ⟨hfield, he, hkey⟩ := hboth
  rw [(get_of_fromJson h hfield).1, hkey]
  exact optionalDoubleAt_eq (member?_number hj he) (hnumbers e he)

/-- What is made of what was sent. -/
structure Received (f : Sent D) (o : Order D) : Prop where
  symbol : o.symbol = f.symbol.getD []
  ratioQty : o.ratioQty = f.ratioQty
  side : o.side = f.side.getD .unknown
  type : o.type = f.type.getD .unknown
  timeInForce : o.timeInForce = f.timeInForce.getD .unknown
  qty : o.qty = f.qty
  notional : o.notional = f.notional
  limitPrice : o.limitPrice = f.limitPrice
  stopPrice : o.stopPrice = f.stopPrice
  trailPrice : o.trailPrice = f.trailPrice
  trailPercent : o.trailPercent = f.trailPercent
  orderClass : o.orderClass = f.orderClass.getD .unknown
  extendedHours : o.extendedHours = f.extendedHours.getD false
  clientOrderId : o.clientOrderId = f.clientOrderId.getD []
  positionIntent : o.positionIntent = f.positionIntent.getD .unknown

/-- **What is sent arrives.** -/
theorem received_of_fromJson (hj : f.In fmt j) (hnumbers : ∀ e ∈ sentNumbers f, ∀ x ∈ e.2, ReadsBack fmt x)
    (h : fromJson lib j empty = .ok o) : Received f o := by
  obtain ⟨⟨o₁, hlines, ho⟩, -⟩ := exists_of_fromJson h
  obtain ⟨hclientOrderId, hsymbol, hside, htype, horderClass, htimeInForce, hpositionIntent⟩ :=
    writes_lines lib j
  have hflag : j.member? (bytes "extended_hours") = f.extendedHours.map .bool := hj _ (by decide)
  have hget := numbers_of_fromJson hj hnumbers h
  simp only [numberFields, sentNumbers, List.forall₂_cons] at hget
  obtain ⟨hqty, hnotional, -, hlimitPrice, hstopPrice, htrailPrice, htrailPercent, -, hratioQty, -⟩ := hget
  refine ⟨?_, hratioQty, ?_, ?_, ?_, hqty, hnotional, hlimitPrice, hstopPrice, htrailPrice, htrailPercent,
    ?_, ?_, ?_, ?_⟩
  all_goals rw [ho]
  · show o₁.symbol = _
    exact hsymbol.getD (fun _ ↦ rfl) (hj _ (by decide)) hlines
  · show o₁.side = _
    exact hside.getD (fun x ↦ congrArg _ (toOrderSide_toString x)) (hj _ (by decide)) hlines
  · show o₁.type = _
    exact htype.getD (fun x ↦ congrArg _ (toOrderType_toString x)) (hj _ (by decide)) hlines
  · show o₁.timeInForce = _
    exact htimeInForce.getD (fun x ↦ congrArg _ (toTimeInForce_toString x)) (hj _ (by decide)) hlines
  · show o₁.orderClass = _
    exact horderClass.getD (fun x ↦ congrArg _ (toOrderClass_toString x)) (hj _ (by decide)) hlines
  · show o₁.extendedHours = _
    rw [extendedHours_of_fromLines hlines, hflag]
    rcases f.extendedHours with - | b <;> rfl
  · show o₁.clientOrderId = _
    exact hclientOrderId.getD (fun _ ↦ rfl) (hj _ (by decide)) hlines
  · show o₁.positionIntent = _
    exact hpositionIntent.getD (fun x ↦ congrArg _ (toPositionIntent_toString x)) (hj _ (by decide)) hlines

end Order

/-- A leg is the leg that was asked for. -/
structure LegRecovers (r : OrderLegRequest D) (o : Order D) : Prop where
  symbol : o.symbol = r.symbol
  ratioQty : o.ratioQty = some r.ratioQty
  side : o.side = r.side
  positionIntent : o.positionIntent = r.positionIntent.getD .unknown

/-- An order is the order that was asked for. -/
structure Recovers (r : OrderRequest D) (o : Order D) : Prop where
  type : o.type = r.type
  timeInForce : o.timeInForce = r.timeInForce
  orderClass : o.orderClass = r.orderClass.getD .unknown
  qty : o.qty = r.qty
  notional : o.notional = r.notional
  limitPrice : o.limitPrice = r.limitPrice
  stopPrice : o.stopPrice = r.stopPrice
  trailPrice : o.trailPrice = r.trailPrice
  trailPercent : o.trailPercent = r.trailPercent
  extendedHours : o.extendedHours = r.extendedHours.getD false
  clientOrderId : o.clientOrderId = r.clientOrderId.getD []
  positionIntent : o.positionIntent = r.positionIntent.getD .unknown
  legs : List.Forall₂ LegRecovers r.legs o.legs
  symbol : o.symbol = if r.orderClass = some .mleg then [] else r.symbol
  side : o.side = if r.orderClass = some .mleg then .unknown else r.side

/-- The numbers of a request. -/
def OrderRequest.numbers (r : OrderRequest D) : List D :=
  [r.qty, r.notional, r.limitPrice, r.stopPrice, r.trailPrice, r.trailPercent,
    r.takeProfit.map TakeProfitRequest.limitPrice, r.stopLoss.map StopLossRequest.stopPrice,
    r.stopLoss.bind StopLossRequest.limitPrice].reduceOption ++ r.legs.map OrderLegRequest.ratioQty

namespace Order

/-- How an exact number is sent. -/
def sendExact (x : ExactDouble) : Bytes := (decimalToString x).getD []

/-- A number with nine digits reads back. -/
theorem readsBack_sendExact {x : ExactDouble} (h : NineDigits x) : ReadsBack sendExact x := by
  obtain ⟨s, hs, hne, hnumeral⟩ := numeral_decimalToString h
  have hsend : sendExact x = s := by rw [sendExact, hs]; rfl
  rw [ReadsBack, hsend]
  exact ⟨hne, hnumeral⟩

/-- A leg is read back. -/
theorem exists_legRecovers (lib : JsonLibrary ExactDouble) {r : OrderLegRequest ExactDouble}
    (h : NineDigits r.ratioQty) :
    ∃ leg, fromJson lib (r.toJson sendExact) empty = .ok leg ∧ LegRecovers r leg := by
  have hin := r.sent_in sendExact
  have hnumbers : ∀ e ∈ sentNumbers r.sent, ∀ x ∈ e.2, ReadsBack sendExact x := by
    simp [sentNumbers, OrderLegRequest.sent, readsBack_sendExact h]
  obtain ⟨leg, hleg⟩ : ∃ leg, fromJson lib (r.toJson sendExact) empty = .ok leg := by
    refine exists_fromJson (total_lines hin hnumbers) ?_
    rw [r.legValues_toJson]
    exact fun _ hmem ↦ absurd hmem List.not_mem_nil
  have hreceived := received_of_fromJson hin hnumbers hleg
  exact ⟨leg, hleg, hreceived.symbol, hreceived.ratioQty, hreceived.side, hreceived.positionIntent⟩

/-- **An order request, read back.** -/
theorem exists_recovers (lib : JsonLibrary ExactDouble) (r : OrderRequest ExactDouble)
    (h : ∀ x ∈ r.numbers, NineDigits x) :
    ∃ o, fromJson lib (r.toJson sendExact) empty = .ok o ∧ Recovers r o := by
  have hin := r.sent_in sendExact
  have hnumbers : ∀ e ∈ sentNumbers r.sent, ∀ x ∈ e.2, ReadsBack sendExact x := by
    intro e he x hx
    refine readsBack_sendExact (h x (List.mem_append_left _ ?_))
    simp only [sentNumbers, OrderRequest.sent, List.mem_cons, List.not_mem_nil, or_false] at he
    rw [List.reduceOption_mem_iff]
    rcases he with rfl | rfl | rfl | rfl | rfl | rfl | rfl | rfl | rfl <;> simp_all
  have hlegs : ∀ leg ∈ r.legs,
      ∃ o, fromJson lib (leg.toJson sendExact) empty = .ok o ∧ LegRecovers leg o := fun leg hleg ↦
    exists_legRecovers lib (h leg.ratioQty (List.mem_append_right _ (List.mem_map_of_mem hleg)))
  obtain ⟨o, ho⟩ : ∃ o, fromJson lib (r.toJson sendExact) empty = .ok o := by
    refine exists_fromJson (total_lines hin hnumbers) fun legJson hmem ↦ ?_
    rw [r.legValues_toJson] at hmem
    obtain ⟨leg, hleg, rfl⟩ := List.mem_map.1 hmem
    obtain ⟨o, ho, -⟩ := hlegs leg hleg
    exact ⟨o, ho⟩
  have hreceived := received_of_fromJson hin hnumbers ho
  have hread := (exists_of_fromJson ho).2
  rw [r.legValues_toJson, List.forall₂_map_left_iff] at hread
  have hrecovers : List.Forall₂ LegRecovers r.legs o.legs := by
    refine List.forall₂_iff_zip.2 ⟨hread.length_eq, fun {leg o'} hmem ↦ ?_⟩
    obtain ⟨o'', ho'', hleg⟩ := hlegs leg (List.of_mem_zip hmem).1
    exact Except.ok.inj (ho''.symm.trans (List.forall₂_zip hread hmem)) ▸ hleg
  exact ⟨o, ho,
    { hreceived with
      type := hreceived.type.trans r.getD_sent_type
      legs := hrecovers
      symbol := hreceived.symbol.trans r.getD_sent_symbol
      side := hreceived.side.trans r.getD_sent_side }⟩

/-- A spread of two legs, at a limit of 2.50. -/
def spread : OrderRequest ExactDouble where
  type := .limit
  qty := some (3 : ℚ)
  limitPrice := some (5 / 2 : ℚ)
  orderClass := some .mleg
  legs := [{ symbol := bytes "AAPL250117C00150000", ratioQty := (1 : ℚ), side := .buy },
    { symbol := bytes "AAPL250117C00160000", ratioQty := (1 : ℚ), side := .sell,
      positionIntent := some .sellToOpen }]

/-- A spread of two legs, with a limit price. -/
theorem exists_recovers_spread :
    ∃ o, fromJson printing (spread.toJson sendExact) empty = .ok o ∧ Recovers spread o := by
  have hnumbers : ∀ x ∈ ([3, 5 / 2, 1, 1] : List ℚ), NineDigits x := by
    intro x hx
    simp only [List.mem_cons, List.not_mem_nil, or_false, or_self] at hx
    rcases hx with rfl | rfl | rfl
    · exact ⟨⟨3 * 10 ^ 9, by norm_num⟩, by norm_num⟩
    · exact ⟨⟨25 * 10 ^ 8, by norm_num⟩, by norm_num⟩
    · exact ⟨⟨10 ^ 9, by norm_num⟩, by norm_num⟩
  exact exists_recovers printing spread hnumbers

end Order

end Alpaca
