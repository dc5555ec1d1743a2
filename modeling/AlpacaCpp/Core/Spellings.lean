import AlpacaCpp.Core.Extraction
import AlpacaCpp.Core.QueryRuns

/-!
# Bare and quoted scalars

Alpaca spells some scalars bare and some in quotes, and the helpers of `alpaca/utils.hpp` accept either.
`Field.sameReading_iff` says **when both spellings are read as the same value**: always for a string; for an
integer up to the largest `int64_t`, which is all that `std::stoll` parses; for a flag unless it is spelled
as a nonzero integer, which is true if it is bare and false in quotes.

A field is an integer of some width, a flag, a string or an enumerator, and a scalar is an integer that
JSON can hold (from -2^63 to 2^64 - 1) or a flag. The quoted spelling is the text that printing gives.

* **integers**: the bare one has been an `int64_t` on the way, so an unsigned value above 2^63 comes out of
  two conversions, and is still the same (`IntType.cast_bmod_of_holds`). The quoted one goes through
  `stoll`, which throws out of range; the helper logs, and returns 0.
* **flags**: a bare number counts as true unless it is 0, a text only if it is `true`.

The comparison is `SameReading`: both lines assign the same value, or both throw. When a reading fails,
the object is printed for the log, and two objects are compared of which both or neither can be printed.
-/

namespace Alpaca

open Decimal QueryBuilder

/-! ### Integers as text -/

/-- A natural number is printed as its digits. -/
theorem exists_digits_natToString (n : ℕ) :
    ∃ ds, natToString n = digits ds ∧ ds ≠ [] ∧ value ds = n := by
  have hchar : ∀ d : Fin 10, byte (Nat.digitChar d) = digit d := by decide
  have htext : ∀ n : ℕ, natToString n = (Nat.toDigits 10 n).map byte := fun n ↦ by
    simp [natToString, bytes]
  induction n using Nat.strongRecOn with
  | ind n ih =>
    rw [htext, Nat.toDigits_eq_if (by decide)]
    split
    case isTrue hn => exact ⟨[⟨n, hn⟩], by simp [digits, hchar ⟨n, hn⟩], by simp, by simp [value]⟩
    case isFalse hn =>
      -- the last digit behind the digits of the rest
      obtain ⟨ds, hds, -, hvalue⟩ := ih (n / 10) (by omega)
      let d : Fin 10 := ⟨n % 10, Nat.mod_lt n (by decide)⟩
      refine ⟨ds ++ [d], ?_, by simp, ?_⟩
      · rw [List.map_append, ← htext, hds, digits_append]
        exact congrArg (fun c ↦ digits ds ++ [c]) (hchar d)
      · rw [value_append, hvalue]
        show n / 10 * 10 ^ 1 + value [d] = n
        have hd : value [d] = n % 10 := by simp [value, d]
        omega

/-- An integer is printed as its sign and its digits. -/
theorem exists_digits_intToString (n : ℤ) :
    ∃ ds, intToString n = (if n < 0 then [byte '-'] else []) ++ digits ds ∧ ds ≠ [] ∧
      value ds = n.natAbs := by
  rw [intToString]
  split
  case isTrue hneg =>
    obtain ⟨ds, hds, hne, hvalue⟩ := exists_digits_natToString n.natAbs
    exact ⟨ds, by rw [hds]; rfl, hne, hvalue⟩
  case isFalse hpos =>
    obtain ⟨ds, hds, hne, hvalue⟩ := exists_digits_natToString n.toNat
    exact ⟨ds, hds, hne, by omega⟩

/-- What `std::stoll` makes of a sign and digits. -/
theorem stoll_digits {ds : List (Fin 10)} (hds : ds ≠ []) (negative : Bool) :
    stoll ((if negative then [byte '-'] else []) ++ digits ds) =
      let n : ℤ := if negative then -value ds else value ds
      if -2 ^ 63 ≤ n ∧ n < 2 ^ 63 then some n else none := by
  obtain ⟨d, ds, rfl⟩ := List.exists_cons_of_ne_nil hds
  obtain ⟨hspace, hminus, hplus⟩ := digit_unsigned d
  have htake := (takeWhile_digits (d :: ds) [] (by simp)).1
  rw [List.append_nil] at htake
  have hdrop : (digits (d :: ds)).dropWhile isSpace = digits (d :: ds) :=
    List.dropWhile_cons_of_neg (by simp [hspace])
  have hhead : (digits (d :: ds)).head? = some (digit d) := rfl
  have hne : digits (d :: ds) ≠ [] := List.cons_ne_nil _ _
  rcases negative with - | -
  · rw [stoll]
    simp only [Bool.false_eq_true, if_false, List.nil_append, hdrop, hhead, Option.some_inj, hminus, hplus,
      or_self, htake, hne, foldl_digits_sub]
  · have hminus' : ([byte '-'] ++ digits (d :: ds)).dropWhile isSpace = byte '-' :: digits (d :: ds) := rfl
    rw [stoll]
    simp only [if_true, hminus', List.head?_cons, true_or, List.drop_one, List.tail_cons, htake, hne, if_false,
      foldl_digits_sub]

/-- **What fits is parsed back.** -/
theorem stoll_intToString (n : ℤ) :
    stoll (intToString n) = if -2 ^ 63 ≤ n ∧ n < 2 ^ 63 then some n else none := by
  obtain ⟨ds, hds, hne, hvalue⟩ := exists_digits_intToString n
  have hread := stoll_digits hne (decide (n < 0))
  have hn : (if n < 0 then -(value ds : ℤ) else value ds) = n := by
    rw [hvalue]
    split <;> omega
  simp only [decide_eq_true_eq, hn] at hread
  rw [hds, hread]

/-- An integer is no word. -/
theorem intToString_ne_cons {n : ℤ} {c : UInt8} {s : Bytes} (hdigit : ¬IsDigit c) (hminus : c ≠ byte '-') :
    intToString n ≠ c :: s := by
  obtain ⟨ds, hds, hne, -⟩ := exists_digits_intToString n
  obtain ⟨d, ds, rfl⟩ := List.exists_cons_of_ne_nil hne
  rw [hds]
  intro heq
  split at heq
  · exact hminus (List.cons.inj heq).1.symm
  · exact hdigit ((List.cons.inj heq).1 ▸ isDigit_digit d.isLt)

/-! ### Scalars and fields -/

/-- An integer or a flag, as the JSON library holds it: an integer is an `int64_t` or a `uint64_t`. -/
inductive JsonScalar where
  | int (n : ℤ) (range : -2 ^ 63 ≤ n ∧ n < 2 ^ 64)
  | bool (b : Bool)

/-- The scalar, bare. -/
def JsonScalar.bare {D : Type} : JsonScalar → Json D
  | int n _ => .int n
  | bool b => .bool b

/-- Its JSON text. -/
def JsonScalar.text : JsonScalar → Bytes
  | int n _ => intToString n
  | bool b => boolToString b

/-- The scalar, in quotes. -/
def JsonScalar.quoted {D : Type} (x : JsonScalar) : Json D := .str x.text

/-- A type of integers. -/
structure IntType where
  signed : Bool
  width : ℕ
  width_pos : 0 < width
  width_le : width ≤ 64

/-- A value is in the range of a type. -/
def IntType.Holds (t : IntType) (n : ℤ) : Prop :=
  if t.signed then -2 ^ (t.width - 1) ≤ n ∧ n < 2 ^ (t.width - 1) else 0 ≤ n ∧ n < 2 ^ t.width

/-- `static_cast` of an `int64_t`. -/
def IntType.cast (t : IntType) (n : ℤ) : ℤ :=
  if t.signed then n.bmod (2 ^ t.width) else n % 2 ^ t.width

/-- A value that has room is not changed. -/
theorem IntType.cast_of_holds {t : IntType} {n : ℤ} (h : t.Holds n) : t.cast n = n := by
  have hpow : 2 ^ t.width = 2 * 2 ^ (t.width - 1) := by
    rw [← pow_succ', Nat.sub_add_cancel t.width_pos]
  rw [Holds] at h
  rw [cast]
  split
  case isTrue hsigned =>
    rw [if_pos hsigned] at h
    refine Int.bmod_eq_of_le_mul_two ?_ ?_ <;> push_cast [hpow] <;> linarith
  case isFalse hunsigned =>
    rw [if_neg hunsigned] at h
    exact Int.emod_eq_of_lt h.1 h.2

/-- Nor is it if it has been an `int64_t` on the way. -/
theorem IntType.cast_bmod_of_holds {t : IntType} {n : ℤ} (h : t.Holds n) : t.cast (n.bmod (2 ^ 64)) = n := by
  rw [Holds] at h
  split at h
  case isTrue hsigned =>
    have hpow : (2 : ℤ) ^ (t.width - 1) ≤ 2 ^ 63 :=
      pow_le_pow_right₀ (by norm_num) (by have := t.width_le; omega)
    have hn : n.bmod (2 ^ 64) = n := by
      refine Int.bmod_eq_of_le_mul_two ?_ ?_ <;> push_cast <;> linarith
    rw [hn]
    exact cast_of_holds (by rw [Holds, if_pos hsigned]; exact h)
  case isFalse hunsigned =>
    have hdvd : (2 : ℤ) ^ t.width ∣ (2 ^ 64 : ℕ) := by
      push_cast
      exact pow_dvd_pow 2 t.width_le
    rw [cast, if_neg hunsigned, ← Int.emod_emod_of_dvd _ hdvd, Int.bmod_emod, Int.emod_emod_of_dvd _ hdvd]
    exact Int.emod_eq_of_lt h.1 h.2

/-- A field, by the macro it is read with. -/
inductive Field : Type 1
  /-- `INT_FROM_JSON` -/
  | int (type : IntType)
  /-- `BOOL_FROM_JSON` -/
  | bool
  /-- `STRING_FROM_JSON` -/
  | string
  /-- `ENUM_FROM_JSON_SCALAR_WITH` -/
  | enumerator {α : Type} (converter : Bytes → α)

namespace Field

/-- What the field holds. -/
abbrev Value : Field → Type
  | int _ => ℤ
  | bool => Bool
  | string => Bytes
  | enumerator (α := α) _ => α

variable {D : Type} [Doubles D] (lib : JsonLibrary D)

/-- The line of the field. -/
def read : (f : Field) → Bytes → Reader D f.Value
  | int type, key => readInt lib key fun _ n ↦ type.cast n
  | bool, key => readBool key fun _ b ↦ b
  | string, key => readString lib key fun _ s ↦ s
  | enumerator converter, key => readScalarEnum lib key converter fun _ a ↦ a

/-- An integer field has room for the scalar. -/
def HasRoom : Field → JsonScalar → Prop
  | int type, .int n _ => type.Holds n
  | _, _ => True

/-- The field is read the same from both spellings. -/
def AcceptsBoth : Field → JsonScalar → Prop
  | int _, .int n _ => n < 2 ^ 63
  | bool, .int n _ => n = 0
  | _, _ => True

end Field

/-- Both readings return the same value, or neither returns. -/
def SameReading {α : Type} (r r' : Except Bytes α) : Prop := r.toOption = r'.toOption

/-- Scalars are printed as their text. -/
def JsonLibrary.DumpsScalars {D : Type} (lib : JsonLibrary D) : Prop :=
  ∀ x : JsonScalar, lib.dump x.bare = .ok x.text

/-! ### Both spellings -/

section Read

variable {D : Type} [Doubles D] {lib : JsonLibrary D} {x : JsonScalar} {key : Bytes} {j j' : Json D}

omit [Doubles D] in
/-- Two objects of which both or neither can be printed are logged alike. -/
theorem sameReading_orLog {α : Type} (hprints : lib.Prints j ↔ lib.Prints j') (fallback : α)
    {e e' : Bytes} :
    SameReading (orLog lib j fallback (.error e)) (orLog lib j' fallback (.error e')) := by
  rw [JsonLibrary.Prints, JsonLibrary.Prints] at hprints
  rw [SameReading, orLog, orLog]
  rcases hj : lib.dump j with what | text
  · rcases hj' : lib.dump j' with what' | text'
    · rfl
    · exact absurd (hprints.2 ⟨text', hj'⟩) (by simp [hj])
  · obtain ⟨text', hj'⟩ := hprints.1 ⟨text, hj⟩
    rw [hj']
    rfl

/-- Readings that agree still do when both are converted. -/
theorem SameReading.map {α β : Type} {r r' : Except Bytes α} (h : SameReading r r') (f : α → β) :
    SameReading (r.map f) (r'.map f) := by
  have hmap : ∀ r : Except Bytes α, (r.map f).toOption = r.toOption.map f := fun r ↦ by
    rcases r with - | - <;> rfl
  rw [SameReading, hmap, hmap, show r.toOption = r'.toOption from h]

/-- `int_from_json` on a string. -/
theorem intFromJson_str {s : Bytes} (hs : s ≠ []) :
    intFromJson lib j (.str s) = (stoll s).elim (orLog lib j 0 (.error (bytes "stoll"))) .ok := by
  simp only [intFromJson, Json.getString, bind, Except.bind, hs, if_false]
  rcases stoll s with - | n <;> rfl

theorem text_ne_nil (x : JsonScalar) : x.text ≠ [] := by
  cases x with
  | int n range => exact intToString_ne_nil n
  | bool b => cases b <;> decide

/-- `int_from_json` cannot read a flag in either spelling. -/
theorem sameReading_intFromJson_bool (hprints : lib.Prints j ↔ lib.Prints j') (b : Bool) :
    SameReading (intFromJson lib j (.bool b)) (intFromJson lib j' (JsonScalar.bool b).quoted) := by
  have htext : stoll (JsonScalar.bool b).text = none := by cases b <;> decide +kernel
  have hbare : intFromJson lib j (.bool b) = orLog lib j 0 (.error (bytes "type must be string")) := rfl
  rw [hbare, JsonScalar.quoted, intFromJson_str (text_ne_nil _), htext, Option.elim_none]
  exact sameReading_orLog hprints 0

/-- **Integers**: what `std::stoll` cannot parse counts as 0. -/
theorem sameReading_int_iff {type : IntType} {n : ℤ} (range : -2 ^ 63 ≤ n ∧ n < 2 ^ 64)
    (hn : type.Holds n) :
    SameReading ((intFromJson lib j (.int n)).map type.cast)
      ((intFromJson lib j' (JsonScalar.int n range).quoted).map type.cast) ↔ n < 2 ^ 63 := by
  have hbare : (intFromJson lib j (.int n)).map type.cast = .ok n :=
    congrArg Except.ok (IntType.cast_bmod_of_holds hn)
  rw [hbare, JsonScalar.quoted, intFromJson_str (text_ne_nil _), JsonScalar.text, stoll_intToString]
  split
  case isTrue hfits =>
    refine iff_of_true ?_ hfits.2
    rw [Option.elim_some, Except.map, IntType.cast_of_holds hn, SameReading]
  -- `stoll` throws out of range, so the quoted spelling is logged and read as 0, which `n` is not
  case isFalse hlarge =>
    refine iff_of_false (fun hsame ↦ ?_) fun hlt ↦ hlarge ⟨range.1, hlt⟩
    -- also after the cast to the type of the field
    have hzero : type.cast 0 = 0 := by
      rw [IntType.cast]
      split
      · exact Int.zero_bmod
      · exact Int.zero_emod _
    rw [Option.elim_none, SameReading, orLog] at hsame
    rcases hdump : lib.dump j' with what | text
    · rw [hdump] at hsame
      cases hsame
    · rw [hdump] at hsame
      have hn : n = type.cast 0 := Option.some_inj.1 hsame
      omega

omit lib in
/-- **Flags**: only the integer 0 means the same in quotes. -/
theorem boolFromJson_int_iff {n : ℤ} (range : -2 ^ 63 ≤ n ∧ n < 2 ^ 64)
    (hzero : Doubles.isZero (Json.intToDouble n : D) = true ↔ n = 0) :
    boolFromJson (.int n : Json D) = boolFromJson ((JsonScalar.int n range).quoted : Json D) ↔ n = 0 := by
  have hquoted : boolFromJson ((JsonScalar.int n range).quoted : Json D) = false :=
    decide_eq_false (intToString_ne_cons (c := byte 't') (s := bytes "rue") (by decide) (by decide))
  have hbare : boolFromJson (.int n : Json D) = !Doubles.isZero (Json.intToDouble n : D) := rfl
  rw [hquoted, hbare, Bool.not_eq_false', hzero]

/-! What the lines read. -/

namespace Field

variable {v : Json D}

theorem read_int {type : IntType} (hv : j.member? key = some v) (o : (int type).Value) :
    (int type).read lib key j o = (intFromJson lib j v).map type.cast := by
  show readInt lib key (fun (_ : ℤ) n ↦ type.cast n) j o = _
  rw [readInt, hv]

theorem read_bool (hv : j.member? key = some v) (o : bool.Value) :
    bool.read lib key j o = .ok (boolFromJson v) := by
  show readBool key (fun (_ : Bool) b ↦ b) j o = _
  simp only [readBool, hv]

/-- The line of a string: null leaves the field alone. -/
theorem read_string (hv : j.member? key = some v) (hnull : v.isNull = false)
    (o : string.Value) :
    string.read lib key j o = (stringFromJson lib v).map id := by
  show readString lib key (fun (_ : Bytes) s ↦ s) j o = _
  rw [readString, hv]
  exact if_neg (by simp [hnull])

/-- The line of an enumerator, which is read by its name. -/
theorem read_enumerator {α : Type} {converter : Bytes → α} (hv : j.member? key = some v)
    (hnull : v.isNull = false) {s : Bytes} (hs : stringFromJson lib v = .ok s)
    (o : (enumerator converter).Value) :
    (enumerator converter).read lib key j o = .ok (converter s) := by
  show readScalarEnum lib key converter (fun (_ : α) a ↦ a) j o = _
  rw [readScalarEnum, readVariable, hv]
  refine (if_neg (by simp [hnull])).trans ?_
  rw [hs]
  rfl

/-- **When a field is read the same from both spellings.** -/
theorem sameReading_iff (hdump : lib.DumpsScalars)
    (hzero : ∀ n : ℤ, -2 ^ 63 ≤ n → n < 2 ^ 64 →
      (Doubles.isZero (Json.intToDouble n : D) = true ↔ n = 0))
    (f : Field) (x : JsonScalar) (hroom : f.HasRoom x) (hbare : j.member? key = some x.bare)
    (hquoted : j'.member? key = some x.quoted) (hprints : lib.Prints j ↔ lib.Prints j') (o : f.Value) :
    SameReading (f.read lib key j o) (f.read lib key j' o) ↔ f.AcceptsBoth x := by
  have hnull : (x.bare : Json D).isNull = false := by cases x <;> rfl
  have htext : stringFromJson lib x.bare = .ok x.text := by
    rw [← hdump x]
    cases x <;> rfl
  cases f with
  | int type =>
    rw [read_int hbare, read_int hquoted]
    cases x with
    | int n range => exact sameReading_int_iff range hroom
    | bool b => exact iff_of_true ((sameReading_intFromJson_bool hprints b).map type.cast) trivial
  | bool =>
    rw [read_bool hbare, read_bool hquoted]
    refine Option.some_inj.trans ?_
    cases x with
    | int n range => exact boolFromJson_int_iff range (hzero n range.1 range.2)
    | bool b => exact iff_of_true (by cases b <;> rfl) trivial
  | string =>
    rw [read_string hbare hnull, read_string hquoted rfl, htext]
    exact iff_of_true rfl trivial
  | enumerator converter =>
    rw [read_enumerator hbare hnull htext, read_enumerator hquoted rfl rfl]
    exact iff_of_true rfl trivial

end Field

end Read

/-! ### An identifier and a flag -/

/-- A library that prints scalars. -/
def scalarsOnly : JsonLibrary ℚ where
  parse _ := .error []
  dump
    | .int n => .ok (intToString n)
    | .bool b => .ok (boolToString b)
    | _ => .ok []

/-- Rational doubles: only the integer 0 becomes a zero. -/
theorem isZero_intToDouble_iff {n : ℤ} (h₁ : -2 ^ 63 ≤ n) (h₂ : n < 2 ^ 64) :
    Doubles.isZero (Json.intToDouble n : ℚ) = true ↔ n = 0 := by
  have hvalue : (Json.intToDouble n : ℚ) = n := by
    rw [Json.intToDouble]
    split
    case isTrue hpos =>
      show (((UInt64.ofNat n.toNat).toNat : ℕ) : ℚ) = n
      have hlt : n.toNat < 2 ^ 64 := by omega
      rw [UInt64.toNat_ofNat_of_lt' hlt, ← Int.cast_natCast, Int.toNat_of_nonneg hpos]
    case isFalse hneg =>
      show (((Int64.ofInt n).toInt : ℤ) : ℚ) = n
      rw [Int64.toInt_ofInt_of_le (by omega) (by omega)]
  show decide ((Json.intToDouble n : ℚ) = 0) = true ↔ n = 0
  rw [hvalue, decide_eq_true_iff, Int.cast_eq_zero]

/-- `uint64_t` -/
def uint64 : IntType := ⟨false, 64, by decide, by decide⟩

/-- The largest identifier that is read from both spellings. -/
def lastId : JsonScalar := .int (2 ^ 63 - 1) (by norm_num)

/-- The largest `int64_t` is the last identifier that both spellings agree on. -/
theorem sameReading_lastId :
    SameReading
      ((Field.int uint64).read scalarsOnly (bytes "i") (.obj [(bytes "i", lastId.bare)]) (0 : ℤ))
      ((Field.int uint64).read scalarsOnly (bytes "i") (.obj [(bytes "i", lastId.quoted)]) (0 : ℤ)) := by
  have hroom : (Field.int uint64).HasRoom lastId := ⟨by norm_num, by norm_num [uint64]⟩
  have haccepts : (Field.int uint64).AcceptsBoth lastId := by
    show (2 ^ 63 - 1 : ℤ) < 2 ^ 63
    norm_num
  have hdump : scalarsOnly.DumpsScalars := fun x ↦ by cases x <;> rfl
  exact (Field.sameReading_iff hdump (fun n ↦ isZero_intToDouble_iff) (Field.int uint64) lastId hroom rfl rfl
    (iff_of_true ⟨_, rfl⟩ ⟨_, rfl⟩) (0 : ℤ)).2 haccepts

/-- **An identifier above the largest `int64_t`, and a flag that is spelled as a number.** -/
theorem not_sameReading_spellings :
    (Field.int uint64).read scalarsOnly (bytes "i") (.obj [(bytes "i", .int (2 ^ 63))]) (0 : ℤ) =
        .ok (2 ^ 63 : ℤ) ∧
      (Field.int uint64).read scalarsOnly (bytes "i")
        (.obj [(bytes "i", .str (bytes "9223372036854775808"))]) (0 : ℤ) = .ok (0 : ℤ) ∧
      Field.bool.read scalarsOnly (bytes "tradable") (.obj [(bytes "tradable", .int 1)]) false = .ok true ∧
      Field.bool.read scalarsOnly (bytes "tradable") (.obj [(bytes "tradable", .str (bytes "1"))]) false =
        .ok false ∧
      ¬∀ (f : Field) (x : JsonScalar) (key : Bytes) (j j' : Json ℚ) (o : f.Value), f.HasRoom x →
        j.member? key = some x.bare → j'.member? key = some x.quoted →
          SameReading (f.read scalarsOnly key j o) (f.read scalarsOnly key j' o) := by
  have hbare : Field.bool.read scalarsOnly (bytes "tradable") (.obj [(bytes "tradable", .int 1)]) false =
      .ok true := rfl
  have hquoted : Field.bool.read scalarsOnly (bytes "tradable")
      (.obj [(bytes "tradable", .str (bytes "1"))]) false = .ok false := rfl
  refine ⟨by decide +kernel, by decide +kernel, hbare, hquoted, fun h ↦ ?_⟩
  have hsame := h .bool (.int 1 (by norm_num)) (bytes "tradable") (.obj [(bytes "tradable", .int 1)])
    (.obj [(bytes "tradable", .str (bytes "1"))]) false trivial rfl rfl
  rw [SameReading, hbare, hquoted] at hsame
  cases hsame

end Alpaca
