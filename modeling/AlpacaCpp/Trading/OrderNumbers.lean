import AlpacaCpp.Trading.OrderModel

/-!
# The optional numbers of an order

A price that is absent or null stays unset. What else stands under its key goes through `double_from_json`,
which makes 0 of everything it cannot read: an empty string, a string that is no numeral, a boolean, an array,
an object, a numeral out of range. So an order says what the wire says **exactly when** each of these values
denotes a number (`readsNumbers_iff`), in the order and in its legs at any depth.

`numeral` is what `strtod` reads as a decimal number, when nothing is left behind it. The doubles are
abstract: `round` is the double nearest to a rational, if it is in range, and `std::stod` is taken to
compute it.

An order that has been read is walked together with the document it was read from (`Node`): the legs of
the one are the legs of the other, in order and number (`forall₂_of_readLegs`), so every order of the tree
has its own object. At one node the statement is about the lines of one `from_json`, of which each number
is read by exactly one (`reads_lines`, `get_of_fromJson`).
-/

namespace Alpaca

open Decimal

/-! ### Numerals

The decimal numerals of `strtod`, with white space and a sign in front, and an exponent behind. The value
is a rational, so that rounding is left to one parameter. -/

/-- Whether there is a minus sign, and what follows the sign. -/
def signOf (s : Bytes) : Bool × Bytes :=
  if s.head? = some (byte '-') then (true, s.drop 1)
  else if s.head? = some (byte '+') then (false, s.drop 1)
  else (false, s)

/-- The number of a string of digits. -/
def ofDigits (digits : Bytes) : ℕ := digits.foldl (fun n c ↦ n * 10 + (c.toNat - 48)) 0

/-- The exponent at the end of a numeral, behind which nothing may stand. -/
def exponentOf : Bytes → Option ℤ
  | [] => some 0
  | e :: s =>
    let (negative, digits) := signOf s
    if (e = byte 'e' ∨ e = byte 'E') ∧ digits ≠ [] ∧ digits.all (fun c ↦ decide (IsDigit c)) then
      some (if negative then -ofDigits digits else ofDigits digits)
    else none

/-- The number of a decimal numeral: a sign, digits with or without a point, an exponent. -/
def numeral (s : Bytes) : Option ℚ :=
  let (negative, s) := signOf (s.dropWhile isSpace)
  let whole := s.takeWhile fun c ↦ decide (IsDigit c)
  let s := s.dropWhile fun c ↦ decide (IsDigit c)
  let behind := if s.head? = some (byte '.') then s.drop 1 else []
  let frac := behind.takeWhile fun c ↦ decide (IsDigit c)
  let s := if s.head? = some (byte '.') then behind.dropWhile fun c ↦ decide (IsDigit c) else s
  if whole ++ frac = [] then none
  else (exponentOf s).map fun e : ℤ ↦
    (if negative then -1 else 1) * (ofDigits (whole ++ frac) : ℚ) * 10 ^ (e - frac.length)

example : numeral (bytes "-120.50e1") = some (-1205) := by decide +kernel

example : numeral (bytes "12abc") = none := by decide +kernel

/-! ### What a value denotes

An integer and a float denote what nlohmann gives for them, a string the double nearest to its numeral.
Nothing else denotes a number, and null does not either: it is a price that was not sent. -/

variable {D : Type}

/-- A wire value denotes a double. -/
def Denotes [DoubleCasts D] (round : ℚ → Option D) : Json D → D → Prop
  | .int n, x => x = Json.intToDouble n
  | .float y, x => x = y
  | .str s, x => ∃ q, numeral s = some q ∧ round q = some x
  | _, _ => False

/-- **A value that denotes a number is read as that number.** -/
theorem doubleFromJson_of_denotes [Doubles D] (lib : JsonLibrary D) {round : ℚ → Option D}
    (hstod : ∀ s q, numeral s = some q → Doubles.stod s = round q) (j : Json D) {v : Json D} {x : D}
    (h : Denotes round v x) : doubleFromJson lib j v = .ok x := by
  cases v with
  | int n => rw [show x = Json.intToDouble n from h, doubleFromJson, orLog]
  | float y => rw [show x = y from h, doubleFromJson, orLog]
  | str s =>
    obtain ⟨q, hq, hround⟩ := h
    have hstod' : Doubles.stod s = some x := (hstod s q hq).trans hround
    have hempty : numeral [] = none := by decide +kernel
    have hne : s ≠ [] := by
      rintro rfl
      exact absurd (hempty.symm.trans hq) (by simp)
    simp [doubleFromJson, Json.getString, hne, hstod', bind, Except.bind, pure, Except.pure, orLog]
  | _ => exact absurd h id

/-! ### Legs

The legs of a document are the elements of the array under `legs`. `Node` goes down the document and the
order at the same time, one leg after the other. -/

/-- The values under `legs`, if they are in an array. -/
def Json.legValues (j : Json D) : List (Json D) :=
  match j.member? (bytes "legs") with
  | some (.arr elems) => elems
  | _ => []

/-- A value is an order, or a leg of one at any depth. -/
inductive LegOf : Json D → Json D → Prop where
  | self (j : Json D) : LegOf j j
  | leg {j legJson k : Json D} : legJson ∈ j.legValues → LegOf legJson k → LegOf j k

namespace Order

/-- An order that was read from a value, or a leg that was read from one of its legs, at any depth. -/
inductive Node : Json D → Order D → Json D → Order D → Prop where
  | self (j : Json D) (o : Order D) : Node j o j o
  | leg {j legJson k : Json D} {o leg p : Order D} : (legJson, leg) ∈ j.legValues.zip o.legs →
      Node legJson leg k p → Node j o k p

/-- An optional number of an order. -/
structure NumberField (D : Type) where
  key : Bytes
  get : Order D → Option D
  set : Order D → Option D → Order D

/-- The fields `OPTIONAL_DOUBLE_FROM_JSON` reads. -/
def numberFields : List (NumberField D) := [
  ⟨bytes "qty", qty, fun o x ↦ { o with qty := x }⟩,
  ⟨bytes "notional", notional, fun o x ↦ { o with notional := x }⟩,
  ⟨bytes "filled_avg_price", filledAvgPrice, fun o x ↦ { o with filledAvgPrice := x }⟩,
  ⟨bytes "limit_price", limitPrice, fun o x ↦ { o with limitPrice := x }⟩,
  ⟨bytes "stop_price", stopPrice, fun o x ↦ { o with stopPrice := x }⟩,
  ⟨bytes "trail_price", trailPrice, fun o x ↦ { o with trailPrice := x }⟩,
  ⟨bytes "trail_percent", trailPercent, fun o x ↦ { o with trailPercent := x }⟩,
  ⟨bytes "hwm", hwm, fun o x ↦ { o with hwm := x }⟩,
  ⟨bytes "ratio_qty", ratioQty, fun o x ↦ { o with ratioQty := x }⟩]

variable [Doubles D] {lib : JsonLibrary D}

omit [Doubles D] in
/-- The legs are no number. -/
theorem get_legs {f : NumberField D} (hf : f ∈ numberFields) (o : Order D) (legs : List (Order D)) :
    f.get { o with legs := legs } = f.get o := by
  simp only [numberFields, List.mem_cons, List.not_mem_nil, or_false] at hf
  rcases hf with rfl | rfl | rfl | rfl | rfl | rfl | rfl | rfl | rfl <;> rfl

/-- Each of them has its line, and no other line writes it. -/
theorem reads_lines {f : NumberField D} (hf : f ∈ numberFields) (j : Json D) :
    readOptionalDouble lib f.key f.set ∈ lines lib ∧ (∀ o x, f.get (f.set o x) = x) ∧
      (∀ line ∈ lines lib, line.Reads j f.get none ∨ line.Reads j f.get (optionalDoubleAt lib j f.key)) ∧
      f.get empty = none := by
  simp only [numberFields, List.mem_cons, List.not_mem_nil, or_false] at hf
  rcases hf with rfl | rfl | rfl | rfl | rfl | rfl | rfl | rfl | rfl
  all_goals
    refine ⟨by simp [lines, linesBefore], fun _ _ ↦ rfl, ?_, rfl⟩
    simp only [lines, linesBefore, linesBehind, timestampFields, List.map_cons, List.map_nil,
      List.cons_append, List.nil_append, List.forall_mem_cons]
    simp [reads_readOptionalDouble]

/-! ### Reading the tree

The orders that have been read are as many as the elements of the array, and in their order, because a leg
that cannot be read ends the whole call. -/

/-- The legs among the members are those under the key. -/
theorem legsIn_eq (members : List (Bytes × Json D)) :
    legsIn lib members = (members.lookup (bytes "legs")).elim (.ok none) (legsOf lib) := by
  induction members with
  | nil => rw [legsIn, List.lookup_nil, Option.elim_none]
  | cons m members ih =>
    obtain ⟨key, v⟩ := m
    rw [legsIn, Json.lookup_cons_eq_ite]
    split
    case isTrue hkey => rw [if_pos hkey.symm, Option.elim_some]
    case isFalse hkey => rw [if_neg fun h ↦ hkey h.symm, ih]

/-- The legs are read one by one. -/
theorem forall₂_of_readLegs {elems : List (Json D)} {legs : List (Order D)}
    (h : readLegs lib elems = .ok legs) :
    List.Forall₂ (fun legJson leg ↦ fromJson lib legJson empty = .ok leg) elems legs := by
  induction elems generalizing legs with
  | nil =>
    rw [readLegs] at h
    rw [← Except.ok.inj h]
    exact .nil
  | cons legJson rest ih =>
    rw [readLegs] at h
    obtain ⟨leg, hleg, h⟩ := exists_of_bind_eq_ok h
    obtain ⟨legs', hrest, h⟩ := exists_of_bind_eq_ok h
    rw [← Except.ok.inj h]
    exact .cons hleg (ih hrest)

/-- No line writes the legs. -/
theorem legs_of_fromLines {j : Json D} {o : Order D} (h : fromLines (lines lib) j empty = .ok o) :
    o.legs = [] := by
  have hlines : ∀ line ∈ lines lib, line.Reads j (fun o ↦ some o.legs) none := by
    simp only [lines, linesBefore, linesBehind, timestampFields, List.map_cons, List.map_nil,
      List.cons_append, List.nil_append, List.forall_mem_cons]
    simp
  have hlegs : some o.legs = some [] :=
    reads_fromLines_of_eq (fun line hline ↦ Or.inl (hlines line hline)) rfl h
  exact Option.some_inj.1 hlegs

/-- **One order**: its lines, and the legs under its key. -/
theorem exists_of_fromJson {j : Json D} {o : Order D} (h : fromJson lib j empty = .ok o) :
    (∃ o₁, fromLines (lines lib) j empty = .ok o₁ ∧ o = { o₁ with legs := o.legs }) ∧
      List.Forall₂ (fun legJson leg ↦ fromJson lib legJson empty = .ok leg) j.legValues o.legs := by
  have hflat : j.legValues = [] → fromLines (lines lib) j empty = .ok o →
      (∃ o₁, fromLines (lines lib) j empty = .ok o₁ ∧ o = { o₁ with legs := o.legs }) ∧
        List.Forall₂ (fun legJson leg ↦ fromJson lib legJson empty = .ok leg) j.legValues o.legs := by
    intro hnone hlines
    refine ⟨⟨o, hlines, by cases o; rfl⟩, ?_⟩
    rw [hnone, legs_of_fromLines hlines]
    exact .nil
  cases j with
  | obj members =>
    rw [fromJson] at h
    obtain ⟨o₁, hlines, h⟩ := exists_of_bind_eq_ok h
    obtain ⟨legs, hlegs, h⟩ := exists_of_bind_eq_ok h
    rw [legsIn_eq] at hlegs
    have hnoArray : legs = none → (Json.obj members).legValues = [] →
        (∃ o₁, fromLines (lines lib) (.obj members) empty = .ok o₁ ∧ o = { o₁ with legs := o.legs }) ∧
          List.Forall₂ (fun legJson leg ↦ fromJson lib legJson empty = .ok leg)
            (Json.obj members).legValues o.legs := by
      rintro rfl hnone
      exact hflat hnone (Except.ok.inj h ▸ hlines)
    rcases hfound : members.lookup (bytes "legs") with - | v
    · rw [hfound] at hlegs
      exact hnoArray (Except.ok.inj hlegs).symm (by rw [Json.legValues, Json.member?, hfound])
    · rw [hfound, Option.elim_some] at hlegs
      cases v with
      | arr elems =>
        rw [legsOf] at hlegs
        obtain ⟨legs', hread, hlegs⟩ := exists_of_bind_eq_ok hlegs
        obtain rfl := Except.ok.inj hlegs
        obtain rfl := Except.ok.inj h
        refine ⟨⟨o₁, hlines, rfl⟩, ?_⟩
        rw [Json.legValues, Json.member?, hfound]
        exact forall₂_of_readLegs hread
      | _ => exact hnoArray (Except.ok.inj hlegs).symm (by rw [Json.legValues, Json.member?, hfound])
  | _ => exact hflat rfl h

/-- Every order of the tree was read from its value. -/
theorem Node.fromJson_eq {j k : Json D} {o p : Order D} (hnode : Node j o k p)
    (h : fromJson lib j empty = .ok o) : fromJson lib k empty = .ok p := by
  induction hnode with
  | self => exact h
  | leg hleg _ ih => exact ih (List.forall₂_zip (exists_of_fromJson h).2 hleg)

/-- Of two lists that go together, every element has its partner. -/
theorem exists_mem_zip {α β : Type} {R : α → β → Prop} {l : List α} {l' : List β} (h : List.Forall₂ R l l')
    {a : α} (ha : a ∈ l) : ∃ b, (a, b) ∈ l.zip l' ∧ R a b := by
  induction h with
  | nil => exact absurd ha List.not_mem_nil
  | @cons a' b l l' hab _ ih =>
    rcases List.mem_cons.1 ha with rfl | ha
    · exact ⟨b, List.mem_cons_self, hab⟩
    · obtain ⟨b', hb', hR⟩ := ih ha
      exact ⟨b', List.mem_cons_of_mem _ hb', hR⟩

/-- Every value of the tree has been read into an order. -/
theorem exists_node {j k : Json D} (hleg : LegOf j k) {o : Order D} (h : fromJson lib j empty = .ok o) :
    ∃ p, Node j o k p := by
  induction hleg generalizing o with
  | self => exact ⟨o, .self _ _⟩
  | leg hmem _ ih =>
    obtain ⟨leg, hzip, hread⟩ := exists_mem_zip (exists_of_fromJson h).2 hmem
    obtain ⟨p, hnode⟩ := ih hread
    exact ⟨p, .leg hzip hnode⟩

omit [Doubles D] in
theorem Node.legOf {j k : Json D} {o p : Order D} (hnode : Node j o k p) : LegOf j k := by
  induction hnode with
  | self => exact .self _
  | leg hleg _ ih => exact .leg (List.of_mem_zip hleg).1 ih

/-! ### The numbers of a tree

For one order the equivalence is a conjunction over its number fields; for the tree it is one over its
nodes. It holds in both directions because a value that denotes nothing is read as 0, and not as unset. -/

variable (round : ℚ → Option D)

/-- What is asked of an order that was read from a value: its legs are the value's, and an optional number is
unset if its key is absent or null, and otherwise the number that is there. -/
structure ReadsNumbers (k : Json D) (p : Order D) : Prop where
  length_legs : p.legs.length = k.legValues.length
  unset : ∀ f ∈ numberFields, (∀ v, k.member? f.key = some v → v.isNull = true) → f.get p = none
  set : ∀ f ∈ numberFields, ∀ x, f.get p = some x → ∃ v, k.member? f.key = some v ∧ Denotes round v x

/-- Under the key of every optional number there is nothing, null or a number. -/
def OnlyNumbers (k : Json D) : Prop :=
  ∀ f ∈ numberFields (D := D), ∀ v, k.member? f.key = some v → v.isNull = true ∨ ∃ x, Denotes round v x

/-- An order and its legs, as they were read from a value and its legs. -/
def TreeReadsNumbers (j : Json D) (o : Order D) : Prop := ∀ k p, Node j o k p → ReadsNumbers round k p

/-- A value and its legs, at any depth. -/
def TreeOnlyNumbers (j : Json D) : Prop := ∀ k, LegOf j k → OnlyNumbers round k

variable {round}

/-- What an optional number holds, and that its line has returned. -/
theorem get_of_fromJson {k : Json D} {p : Order D} (h : fromJson lib k empty = .ok p) {f : NumberField D}
    (hf : f ∈ numberFields) : f.get p = optionalDoubleAt lib k f.key ∧
      ∀ v, k.member? f.key = some v → v.isNull = false → ∃ x, doubleFromJson lib k v = .ok x := by
  obtain ⟨⟨o₁, hlines, hp⟩, -⟩ := exists_of_fromJson h
  obtain ⟨hmem, hset, hreads, hempty⟩ := reads_lines hf k
  refine ⟨?_, fun v hv hnull ↦ ?_⟩
  · rw [hp, get_legs hf]
    exact reads_fromLines hreads hmem (reads_readOptionalDouble hset) hempty hlines
  · obtain ⟨o₂, o₃, hline⟩ := exists_of_fromLines hmem hlines
    simp only [readOptionalDouble, hv, hnull, Bool.false_eq_true, if_false] at hline
    obtain ⟨x, hx, -⟩ := exists_of_map_eq_ok hline
    exact ⟨x, hx⟩

/-- **One order**: its numbers are the wire's exactly when the wire holds numbers. -/
theorem readsNumbers_of_fromJson_iff (hstod : ∀ s q, numeral s = some q → Doubles.stod s = round q)
    {k : Json D} {p : Order D} (h : fromJson lib k empty = .ok p) :
    ReadsNumbers round k p ↔ OnlyNumbers round k := by
  constructor
  · -- a value that is there and not null sets the field, so the wire must hold its number
    rintro ⟨-, -, hset⟩ f hf v hv
    rcases hnull : v.isNull with - | -
    · obtain ⟨hget, hreturns⟩ := get_of_fromJson h hf
      obtain ⟨x, hx⟩ := hreturns v hv hnull
      have hfield : f.get p = some x := by
        rw [hget, optionalDoubleAt, hv, Option.bind_some, hnull, if_neg Bool.false_ne_true, hx]
        rfl
      obtain ⟨v', hv', hdenotes⟩ := hset f hf x hfield
      obtain rfl := Option.some_inj.1 (hv.symm.trans hv')
      exact Or.inr ⟨x, hdenotes⟩
    · exact Or.inl rfl
  · intro honly
    refine ⟨(exists_of_fromJson h).2.length_eq.symm, fun f hf hunset ↦ ?_, fun f hf x hx ↦ ?_⟩
    · rw [(get_of_fromJson h hf).1, optionalDoubleAt, Option.bind_eq_none_iff]
      exact fun v hv ↦ if_pos (hunset v hv)
    · rw [(get_of_fromJson h hf).1, optionalDoubleAt, Option.bind_eq_some_iff] at hx
      obtain ⟨v, hv, hx⟩ := hx
      refine ⟨v, hv, ?_⟩
      rcases honly f hf v hv with hnull | ⟨y, hy⟩
      · exact absurd hx (by simp [hnull])
      · have hread := doubleFromJson_of_denotes lib hstod k hy
        split at hx
        · exact absurd hx (by simp)
        · rw [hread] at hx
          exact Option.some_inj.1 hx ▸ hy

/-- **Exactly when an order says what the wire says**, in all its legs. -/
theorem readsNumbers_iff (lib : JsonLibrary D) (round : ℚ → Option D)
    (hstod : ∀ s q, numeral s = some q → Doubles.stod s = round q) {j : Json D} {o : Order D}
    (h : fromJson lib j empty = .ok o) :
    TreeReadsNumbers round j o ↔ TreeOnlyNumbers round j := by
  constructor
  · intro hreads k hleg
    obtain ⟨p, hnode⟩ := exists_node hleg h
    exact (readsNumbers_of_fromJson_iff hstod (hnode.fromJson_eq h)).1 (hreads k p hnode)
  · intro honly k p hnode
    exact (readsNumbers_of_fromJson_iff hstod (hnode.fromJson_eq h)).2 (honly k hnode.legOf)

/-! ### Two answers

A bracket order with a leg, and an order whose limit price is an empty string. -/

/-- Doubles that do not round. -/
def ExactDouble : Type := ℚ

instance : DoubleCasts ExactDouble := inferInstanceAs (DoubleCasts ℚ)

instance : Doubles ExactDouble where
  stod := numeral
  isZero (x : ℚ) := x = 0

/-- Every rational is in range. -/
def unrounded : ℚ → Option ExactDouble := some

/-- A library whose printing never throws. -/
def printing : JsonLibrary ExactDouble := ⟨fun _ ↦ .error [], fun _ ↦ .ok []⟩

/-- A bracket order with one leg. -/
def bracket : Json ExactDouble :=
  .obj [(bytes "legs", .arr [.obj [(bytes "stop_price", .str (bytes "110.5"))]]),
    (bytes "limit_price", .str (bytes "120.5")), (bytes "stop_price", .null)]

/-- The order it is read into. -/
def bracketOrder : Order ExactDouble :=
  { empty with
    limitPrice := numeral (bytes "120.5")
    legs := [{ empty with stopPrice := numeral (bytes "110.5") }] }

/-- An object is looked at member by member. -/
theorem onlyNumbers_obj {round : ℚ → Option D} {members : List (Bytes × Json D)}
    (h : ∀ e ∈ members, e.1 ∈ (numberFields (D := D)).map NumberField.key →
      e.2.isNull = true ∨ ∃ x, Denotes round e.2 x) : OnlyNumbers round (.obj members) := by
  intro f hf v hv
  obtain ⟨front, back, hsplit, -⟩ := List.lookup_eq_some_iff.1 hv
  refine h (f.key, v) ?_ (List.mem_map_of_mem hf)
  rw [hsplit]
  exact List.mem_append_right _ List.mem_cons_self

/-- A string that is a numeral. -/
theorem denotes_str {s : Bytes} {q : ℚ} (h : numeral s = some q) :
    ∃ x, Denotes unrounded (.str s) x := ⟨q, q, h, rfl⟩

/-- A bracket with its prices in quotes, and one of them null. -/
theorem treeOnlyNumbers_bracket : TreeOnlyNumbers unrounded bracket := by
  have hlimit : numeral (bytes "120.5") = some (241 / 2) := by decide +kernel
  have hstop : numeral (bytes "110.5") = some (221 / 2) := by decide +kernel
  intro k hk
  cases hk with
  | self =>
    refine onlyNumbers_obj (List.forall_mem_cons.2 ⟨fun hkey ↦ absurd hkey (by decide), ?_⟩)
    refine List.forall_mem_cons.2 ⟨fun _ ↦ Or.inr (denotes_str hlimit), ?_⟩
    exact List.forall_mem_cons.2 ⟨fun _ ↦ Or.inl rfl, by simp⟩
  | leg hmem hleg =>
    obtain rfl := List.mem_singleton.1 hmem
    cases hleg with
    | self =>
      exact onlyNumbers_obj (List.forall_mem_cons.2 ⟨fun _ ↦ Or.inr (denotes_str hstop), by simp⟩)
    | leg hmem => exact absurd hmem List.not_mem_nil

/-- Its numbers are read as they stand. -/
theorem treeReadsNumbers_bracket : TreeReadsNumbers unrounded bracket bracketOrder :=
  (readsNumbers_iff printing unrounded (fun _ _ h ↦ h)
    (show fromJson printing bracket empty = .ok bracketOrder from rfl)).2 treeOnlyNumbers_bracket

/-- An order whose limit price is an empty string. -/
def unpriced : Json ExactDouble := .obj [(bytes "limit_price", .str [])]

/-- **A price that is not there becomes a price of 0.** -/
theorem not_treeReadsNumbers_unpriced :
    fromJson printing unpriced empty = .ok { empty with limitPrice := some DoubleCasts.zero } ∧
      ¬TreeReadsNumbers unrounded unpriced { empty with limitPrice := some DoubleCasts.zero } := by
  refine ⟨rfl, fun hreads ↦ ?_⟩
  have hlimit : (⟨bytes "limit_price", limitPrice, fun o x ↦ { o with limitPrice := x }⟩ :
      NumberField ExactDouble) ∈ numberFields := by simp [numberFields]
  obtain ⟨v, hv, hdenotes⟩ := (hreads _ _ (.self _ _)).set _ hlimit DoubleCasts.zero rfl
  obtain rfl : Json.str [] = v := Option.some_inj.1 hv
  obtain ⟨q, hq, -⟩ := hdenotes
  have hempty : numeral [] = none := by decide +kernel
  exact absurd (hempty.symm.trans hq) (by simp)

end Order

end Alpaca
