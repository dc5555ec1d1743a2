import AlpacaCpp.Core.Enums
import AlpacaCpp.Core.Json
import AlpacaCpp.Foundation.Decimal
import AlpacaCpp.Time.Timestamp

/-!
# Extraction of JSON fields

The helpers and macros of `alpaca/utils.hpp` that every `from_json` is written with. A `from_json` is a
list of lines, each a `Reader`: it looks at one key of the object and returns the model with one field
assigned, or throws what an exception's `what()` says. A line is a no-op when its key is absent.

Most macros catch what reading throws and print the whole object into the log; `orLog` is that block.
So they throw only when the object cannot be printed (`Reader.Total`). `TIMESTAMP_FROM_JSON` does not
catch: it throws exactly when its value is neither null nor a string (`returnsIff_readTimestamp`).

Three questions are asked of a line, and each of them is put together over a list of lines:

* **does it return?** `Reader.ReturnsIff` names the condition on the object, whatever the model holds
  before, so conditions of lines can be conjoined (`returnsIff_append`);
* **what does the model hold after it?** the equations `readVariable_eq`, `readInt_eq`, `readDouble_eq` and
  `readTimestamp_eq`, for lines that are known not to throw;
* **where does a field come from?** `Reader.Reads`, for lines that may throw: if the line returns, the field
  holds what the line read, or what it held before. `reads_fromLines_or` carries this over a whole
  `from_json` in which one line reads the field and the others leave it alone.

A model reads one wire name under one key, so two lines of a list never fight over a field; where the
source does list the same field twice, both lines read the same thing, and `reads_fromLines_or` allows it.
-/

namespace Alpaca

open Decimal

/-! ### Numbers

What the standard library and nlohmann do when a value is asked for as a type. Integers come as numbers or
as text, and `stoll` reads the longest prefix that is one. Parts and their printing belong here as well,
for the log lines of the macros print the whole object. -/

/-- Reading doubles. -/
class Doubles (D : Type) extends DoubleCasts D where
  /-- `std::stod`; `none` when it throws. -/
  stod : Bytes → Option D
  /-- `== 0.` -/
  isZero : D → Bool

/-- `std::stoll`; `none` when it throws. What follows the digits is ignored. -/
def stoll (s : Bytes) : Option ℤ :=
  let s := s.dropWhile isSpace
  let negative := s.head? = some (byte '-')
  let s := if negative ∨ s.head? = some (byte '+') then s.drop 1 else s
  let digits := s.takeWhile fun c ↦ decide (IsDigit c)
  let magnitude : ℕ := digits.foldl (fun n c ↦ n * 10 + (c.toNat - 48)) 0
  let value : ℤ := if negative then -magnitude else magnitude
  if digits = [] then none
  else if -2 ^ 63 ≤ value ∧ value < 2 ^ 63 then some value
  else none

/-- A digit is neither white space nor a sign. -/
theorem digit_unsigned (d : Fin 10) :
    isSpace (digit d) = false ∧ digit d ≠ byte '-' ∧ digit d ≠ byte '+' := by
  revert d
  decide

/-- Rationals, with integer numerals only. -/
instance : Doubles ℚ where
  stod s := (stoll s).map Int.cast
  isZero x := x = 0

namespace Json

variable {D : Type}

/-- `get<double>()` of a JSON integer. -/
def intToDouble [DoubleCasts D] (n : ℤ) : D :=
  if 0 ≤ n then DoubleCasts.ofUInt64 (UInt64.ofNat n.toNat) else DoubleCasts.ofInt64 (Int64.ofInt n)

/-- `is_null()` -/
def isNull : Json D → Bool
  | null => true
  | _ => false

/-- `is_number()` -/
def isNumber : Json D → Bool
  | int _ => true
  | float _ => true
  | _ => false

/-- `is_string()` -/
def isString : Json D → Bool
  | str _ => true
  | _ => false

/-- `get<std::vector<std::string>>()` -/
def getStrings : Json D → Except Bytes (List Bytes)
  | arr elems => elems.mapM getString
  | _ => .error (bytes "type must be array")

/-- Being a part of a value, or the value itself. -/
inductive Part : Json D → Json D → Prop where
  | self (j : Json D) : Part j j
  | elem {k e : Json D} {elems : List (Json D)} : e ∈ elems → Part k e → Part k (arr elems)
  | member {k v : Json D} {key : Bytes} {members : List (Bytes × Json D)} :
      (key, v) ∈ members → Part k v → Part k (obj members)

end Json

namespace JsonLibrary

variable {D : Type} (lib : JsonLibrary D)

/-- `dump` does not throw. -/
def Prints (j : Json D) : Prop := ∃ text, lib.dump j = .ok text

/-- Parsing lets no string through that printing would refuse. -/
def ParsedPrints : Prop := ∀ text j k, lib.parse text = .ok j → Json.Part k j → lib.Prints k

end JsonLibrary

/-! ### Helpers

The functions behind the macros, each with the exceptions it throws. A `catch` block that prints the
object can throw in its turn, and then the exception leaves the block that was meant to catch it. -/

section Helpers

variable {D α : Type} (lib : JsonLibrary D)

/-- `catch (const std::exception &e) { LOG_ERROR(…, j.dump()); }` behind a `try` block. -/
def orLog (j : Json D) (fallback : α) : Except Bytes α → Except Bytes α
  | .ok a => .ok a
  | .error _ => (lib.dump j).map fun _ ↦ fallback

/-- `nanoseconds_from_json`, for the value of the field. -/
def nanosecondsFromJson (v : Json D) : Except Bytes ℕ :=
  if v.isNull then .ok 0 else v.getString.map toNanoseconds

/-- `double_from_json`, for the value of the field. -/
def doubleFromJson [Doubles D] (j v : Json D) : Except Bytes D :=
  orLog lib j DoubleCasts.zero
    (match v with
    | .null => .ok DoubleCasts.zero
    | .int n => .ok (Json.intToDouble n)
    | .float x => .ok x
    | v => do
      let s ← v.getString
      if s = [] then return DoubleCasts.zero
      match Doubles.stod s with
      | some x => return x
      | none => throw (bytes "stod"))

/-- `int_from_json`, for the value of the field. -/
def intFromJson [DoubleCasts D] (j v : Json D) : Except Bytes ℤ :=
  orLog lib j 0
    (match v with
    | .null => .ok 0
    | .int n => .ok (n.bmod (2 ^ 64))
    | .float x => .ok (DoubleCasts.toInt64 x).toInt
    | v => do
      let s ← v.getString
      if s = [] then return 0
      match stoll s with
      | some n => return n
      | none => throw (bytes "stoll"))

/-- `bool_from_json`, for the value of the field. Nothing in its `try` block throws. -/
def boolFromJson [Doubles D] (v : Json D) : Bool :=
  match v with
  | .null => false
  | .bool b => b
  | .str s => s = bytes "true"
  | .int n => !Doubles.isZero (Json.intToDouble n : D)
  | .float x => !Doubles.isZero x
  | _ => false

/-- `string_from_json`, for the value of the field. It does not catch what `dump` throws. -/
def stringFromJson (v : Json D) : Except Bytes Bytes :=
  match v with
  | .null => .ok []
  | .str s => .ok s
  | v => lib.dump v

end Helpers

/-! ### Lines of a `from_json`

One definition for each macro. A line is given its key, the way to read the value and the field to assign,
which is all that the lines of the models differ in. -/

/-- One line of a `from_json`, from the model filled in so far. -/
abbrev Reader (D M : Type) := Json D → M → Except Bytes M

section Macros

variable {D M α : Type} (lib : JsonLibrary D)

/-- A `from_json`, line by line. -/
def fromLines (lines : List (Reader D M)) : Reader D M :=
  fun j o ↦ lines.foldlM (fun o line ↦ line j o) o

/-- `TIMESTAMP_FROM_JSON` -/
def readTimestamp (key : Bytes) (assign : M → ℕ → M) : Reader D M := fun j o ↦
  match j.member? key with
  | some v => (nanosecondsFromJson v).map (assign o)
  | none => .ok o

/-- `DOUBLE_FROM_JSON` -/
def readDouble [Doubles D] (key : Bytes) (assign : M → D → M) : Reader D M := fun j o ↦
  match j.member? key with
  | some v => (doubleFromJson lib j v).map (assign o)
  | none => .ok o

/-- `INT_FROM_JSON`; the cast to the type of the field is part of `assign`. -/
def readInt [DoubleCasts D] (key : Bytes) (assign : M → ℤ → M) : Reader D M := fun j o ↦
  match j.member? key with
  | some v => (intFromJson lib j v).map (assign o)
  | none => .ok o

/-- `BOOL_FROM_JSON` -/
def readBool [Doubles D] (key : Bytes) (assign : M → Bool → M) : Reader D M := fun j o ↦
  match j.member? key with
  | some v => .ok (assign o (boolFromJson v))
  | none => .ok o

/-- `OPTIONAL_DOUBLE_FROM_JSON` -/
def readOptionalDouble [Doubles D] (key : Bytes) (assign : M → Option D → M) : Reader D M := fun j o ↦
  match j.member? key with
  | some v => if v.isNull then .ok o else (doubleFromJson lib j v).map fun x ↦ assign o (some x)
  | none => .ok o

/-- `VARIABLE_FROM_JSON`, for a field whose type is read with `get`. -/
def readVariable (key : Bytes) (get : Json D → Except Bytes α) (assign : M → α → M) : Reader D M :=
  fun j o ↦
    match j.member? key with
    | some v => if v.isNull then .ok o else orLog lib j o ((get v).map (assign o))
    | none => .ok o

/-- `ENUM_FROM_JSON_WITH` -/
def readEnum (key : Bytes) (converter : Bytes → α) (assign : M → α → M) : Reader D M :=
  readVariable lib key (fun v ↦ v.getString.map converter) assign

/-- `STRING_FROM_JSON` -/
def readString (key : Bytes) (assign : M → Bytes → M) : Reader D M := fun j o ↦
  match j.member? key with
  | some v => if v.isNull then .ok o else (stringFromJson lib v).map (assign o)
  | none => .ok o

/-- `ENUM_FROM_JSON_SCALAR_WITH` -/
def readScalarEnum (key : Bytes) (converter : Bytes → α) (assign : M → α → M) : Reader D M :=
  readVariable lib key (fun v ↦ (stringFromJson lib v).map converter) assign

/-- `to_model`: a default value, filled in from a response that is an object. -/
def Json.toModel (fromJson : Reader D M) (default : M) : Json D → Except Bytes M
  | .obj members => fromJson (.obj members) default
  | _ => .ok default

/-- `to_vector`: nothing for a response that is not an array. -/
def Json.toVector (fromJson : Reader D M) (default : M) : Json D → Except Bytes (List M)
  | .arr elems => elems.mapM fun e ↦ fromJson e default
  | _ => .ok []

/-! ### What throws

For a macro that catches, the condition is that the object can be printed; for one that does not, it is a
condition on the value under its key. A list of lines returns when all of them do, whatever the model
holds in between. -/

/-- A function of the result does not matter. -/
theorem exists_map_eq_ok {β : Type} {x : Except Bytes α} {f : α → β} :
    (∃ b, x.map f = .ok b) ↔ ∃ a, x = .ok a := by
  rcases x with what | a
  · simp [Except.map]
  · exact iff_of_true ⟨f a, rfl⟩ ⟨a, rfl⟩

/-- Two computations one after the other return when both do. -/
theorem exists_bind_eq_ok {β : Type} {x : Except Bytes α} {f : α → Except Bytes β} :
    (∃ b, x >>= f = .ok b) ↔ ∃ a, x = .ok a ∧ ∃ b, f a = .ok b := by
  cases x with
  | ok a => exact ⟨fun h ↦ ⟨a, rfl, h⟩, fun ⟨_, ha, h⟩ ↦ Except.ok.inj ha ▸ h⟩
  | error what =>
    refine iff_of_false ?_ ?_
    · rintro ⟨_, hb⟩
      exact absurd hb (by simp [bind, Except.bind])
    · rintro ⟨_, ha, -⟩
      exact absurd ha (by simp)

/-- What never throws does not matter behind what may. -/
theorem exists_bind_eq_ok_of_total {β : Type} {x : Except Bytes α} {f : α → Except Bytes β}
    (h : ∀ a, ∃ b, f a = .ok b) : (∃ b, x >>= f = .ok b) ↔ ∃ a, x = .ok a := by
  rw [exists_bind_eq_ok]
  exact ⟨fun ⟨a, ha, _⟩ ↦ ⟨a, ha⟩, fun ⟨a, ha⟩ ↦ ⟨a, ha, h a⟩⟩

/-- A loop returns when every turn does. -/
theorem exists_mapM_eq_ok {β : Type} {f : α → Except Bytes β} (l : List α) :
    (∃ bs, l.mapM f = .ok bs) ↔ ∀ a ∈ l, ∃ b, f a = .ok b := by
  induction l with
  | nil => exact iff_of_true ⟨[], rfl⟩ (by simp)
  | cons a l ih =>
    rw [List.mapM_cons, exists_bind_eq_ok, List.forall_mem_cons, ← ih]
    constructor
    · rintro ⟨b, hb, htail⟩
      exact ⟨⟨b, hb⟩, (exists_bind_eq_ok_of_total fun bs ↦ ⟨b :: bs, rfl⟩).1 htail⟩
    · rintro ⟨⟨b, hb⟩, htail⟩
      exact ⟨b, hb, (exists_bind_eq_ok_of_total fun bs ↦ ⟨b :: bs, rfl⟩).2 htail⟩

/-- A reader that does not throw on `j`. -/
def Reader.Total (line : Reader D M) (j : Json D) : Prop := ∀ o, ∃ o', line j o = .ok o'

/-- Lines that never throw make a `from_json` that never throws. -/
theorem total_fromLines {lines : List (Reader D M)} {j : Json D}
    (h : ∀ line ∈ lines, line.Total j) : (fromLines lines).Total j := by
  induction lines with
  | nil => exact fun o ↦ ⟨o, rfl⟩
  | cons line lines ih =>
    intro o
    obtain ⟨o', ho'⟩ := h line List.mem_cons_self o
    obtain ⟨o'', ho''⟩ := ih (fun l hl ↦ h l (List.mem_cons_of_mem _ hl)) o'
    refine ⟨o'', ?_⟩
    rw [fromLines, List.foldlM_cons, ho']
    exact ho''

/-- A reader that returns on `j` exactly under a condition, whatever the model it begins with. -/
def Reader.ReturnsIff (line : Reader D M) (j : Json D) (p : Prop) : Prop :=
  ∀ o, (∃ o', line j o = .ok o') ↔ p

theorem Reader.Total.returnsIff {line : Reader D M} {j : Json D} (h : line.Total j) :
    line.ReturnsIff j True := fun o ↦ iff_of_true (h o) trivial

/-- Lines one after the other return when all of them do. -/
theorem returnsIff_append {lines lines' : List (Reader D M)} {j : Json D} {p q : Prop}
    (h : (fromLines lines).ReturnsIff j p) (h' : (fromLines lines').ReturnsIff j q) :
    (fromLines (lines ++ lines')).ReturnsIff j (p ∧ q) := by
  intro o
  have happend : fromLines (lines ++ lines') j o = fromLines lines j o >>= fromLines lines' j :=
    List.foldlM_append
  rw [happend, exists_bind_eq_ok, ← h o]
  exact ⟨fun ⟨o₁, ho₁, h₁⟩ ↦ ⟨⟨o₁, ho₁⟩, (h' o₁).1 h₁⟩, fun ⟨⟨o₁, ho₁⟩, hq⟩ ↦ ⟨o₁, ho₁, (h' o₁).2 hq⟩⟩

theorem fromLines_singleton (line : Reader D M) (j : Json D) (o : M) :
    fromLines [line] j o = line j o := by
  rw [fromLines, List.foldlM_cons]
  cases line j o <;> rfl

/-- One line asks for what it asks for by itself. -/
theorem returnsIff_singleton {line : Reader D M} {j : Json D} {p : Prop} (h : line.ReturnsIff j p) :
    (fromLines [line]).ReturnsIff j p := by
  intro o
  rw [fromLines_singleton]
  exact h o

/-- The block that logs does not throw when the object can be printed. -/
theorem exists_orLog_eq_ok {j : Json D} (hj : lib.Prints j) (fallback : α) (read : Except Bytes α) :
    ∃ a, orLog lib j fallback read = .ok a := by
  cases read with
  | ok a => exact ⟨a, rfl⟩
  | error what =>
    obtain ⟨text, htext⟩ := hj
    exact ⟨fallback, by rw [orLog, htext]; rfl⟩

section Totality

variable {lib} {j : Json D} (hj : lib.Prints j) (key : Bytes)

include hj

/-- The macros that catch: the line either assigns or logs. -/
theorem total_readVariable (get : Json D → Except Bytes α) (assign : M → α → M) :
    (readVariable lib key get assign).Total j := by
  intro o
  rw [readVariable]
  cases j.member? key with
  | none => exact ⟨o, rfl⟩
  | some v =>
    dsimp only
    split
    · exact ⟨o, rfl⟩
    · exact exists_orLog_eq_ok lib hj o _

theorem total_readEnum (converter : Bytes → α) (assign : M → α → M) :
    (readEnum lib key converter assign).Total j :=
  total_readVariable hj key _ assign

/-- An integer that cannot be read is logged, and 0 is assigned. -/
theorem total_readInt [DoubleCasts D] (assign : M → ℤ → M) : (readInt lib key assign).Total j := by
  intro o
  rw [readInt]
  cases j.member? key with
  | none => exact ⟨o, rfl⟩
  | some v =>
    obtain ⟨n, hn⟩ : ∃ n, intFromJson lib j v = .ok n := exists_orLog_eq_ok lib hj 0 _
    exact ⟨assign o n, by dsimp only; rw [hn]; rfl⟩

variable [Doubles D]

/-- A double that cannot be read is logged, and 0 is assigned. -/
theorem total_readDouble (assign : M → D → M) : (readDouble lib key assign).Total j := by
  intro o
  rw [readDouble]
  cases j.member? key with
  | none => exact ⟨o, rfl⟩
  | some v =>
    obtain ⟨x, hx⟩ : ∃ x, doubleFromJson lib j v = .ok x := exists_orLog_eq_ok lib hj _ _
    exact ⟨assign o x, by dsimp only; rw [hx]; rfl⟩

/-- An optional double is unset by null only. -/
theorem total_readOptionalDouble (assign : M → Option D → M) :
    (readOptionalDouble lib key assign).Total j := by
  intro o
  rw [readOptionalDouble]
  cases j.member? key with
  | none => exact ⟨o, rfl⟩
  | some v =>
    obtain ⟨x, hx⟩ : ∃ x, doubleFromJson lib j v = .ok x := exists_orLog_eq_ok lib hj _ _
    dsimp only
    split
    · exact ⟨o, rfl⟩
    · exact ⟨assign o (some x), by rw [hx]; rfl⟩

end Totality

/-! A line also returns when nothing it meets throws, whatever the library does with the object. -/

/-- Nothing is logged when the value under the key can be read. -/
theorem total_readVariable_of_reads {j : Json D} {key : Bytes} {get : Json D → Except Bytes α}
    (h : ∀ v, j.member? key = some v → ∃ a, get v = .ok a) (assign : M → α → M) :
    (readVariable lib key get assign).Total j := by
  intro o
  rw [readVariable]
  rcases hv : j.member? key with - | v
  · exact ⟨o, rfl⟩
  · obtain ⟨a, ha⟩ := h v hv
    dsimp only
    split
    · exact ⟨o, rfl⟩
    · exact ⟨assign o a, by rw [ha]; rfl⟩

/-- An optional double that can be read does not throw. -/
theorem total_readOptionalDouble_of_reads [Doubles D] {j : Json D} {key : Bytes}
    (h : ∀ v, j.member? key = some v → ∃ x, doubleFromJson lib j v = .ok x) (assign : M → Option D → M) :
    (readOptionalDouble lib key assign).Total j := by
  intro o
  rw [readOptionalDouble]
  rcases hv : j.member? key with - | v
  · exact ⟨o, rfl⟩
  · obtain ⟨x, hx⟩ := h v hv
    dsimp only
    split
    · exact ⟨o, rfl⟩
    · exact ⟨assign o (some x), by rw [hx]; rfl⟩

/-- An absent key. -/
theorem total_readDouble_of_absent [Doubles D] {j : Json D} {key : Bytes} (h : j.member? key = none)
    (assign : M → D → M) : (readDouble lib key assign).Total j := by
  intro o
  rw [readDouble, h]
  exact ⟨o, rfl⟩

/-- A timestamp that is not there does not throw. -/
theorem total_readTimestamp_of_absent {j : Json D} {key : Bytes} (h : j.member? key = none)
    (assign : M → ℕ → M) : (readTimestamp key assign).Total j := by
  intro o
  rw [readTimestamp, h]
  exact ⟨o, rfl⟩

/-- A flag is read from any value: what is neither a flag, a number nor the text `true` counts as false. -/
theorem total_readBool [Doubles D] (key : Bytes) (assign : M → Bool → M) (j : Json D) :
    (readBool key assign).Total j := by
  intro o
  rw [readBool]
  cases j.member? key with
  | none => exact ⟨o, rfl⟩
  | some v => exact ⟨assign o (boolFromJson v), rfl⟩

/-- The value under a key is absent, null or a string. -/
def Json.Dated (j : Json D) (key : Bytes) : Prop :=
  ∀ v, j.member? key = some v → v.isNull = true ∨ v.isString = true

/-- **The macro that does not catch.** -/
theorem returnsIff_readTimestamp (key : Bytes) (assign : M → ℕ → M) (j : Json D) :
    (readTimestamp key assign).ReturnsIff j (j.Dated key) := by
  intro o
  rw [readTimestamp, Json.Dated]
  cases j.member? key with
  | none => exact iff_of_true ⟨o, rfl⟩ fun v hv ↦ absurd hv (by simp)
  | some v =>
    have hread : (∃ n, nanosecondsFromJson v = .ok n) ↔ v.isNull = true ∨ v.isString = true := by
      cases v with
      | null => exact iff_of_true ⟨0, rfl⟩ (Or.inl rfl)
      | str s => exact iff_of_true ⟨_, rfl⟩ (Or.inr rfl)
      | _ =>
        refine iff_of_false ?_ (by simp [Json.isNull, Json.isString])
        rintro ⟨_, h⟩
        -- `get<std::string_view>` throws `type_error` on anything but a string
        exact absurd h (by simp [nanosecondsFromJson, Json.isNull, Json.getString, Except.map])
    dsimp only
    rw [exists_map_eq_ok, hread]
    exact ⟨fun h v' hv' ↦ Option.some_inj.1 hv' ▸ h, fun h ↦ h v rfl⟩

/-- A table of timestamps. -/
theorem returnsIff_timestamps (fields : List (Bytes × (M → ℕ → M))) (j : Json D) :
    (fromLines (fields.map fun f ↦ readTimestamp f.1 f.2)).ReturnsIff j
      (∀ key ∈ fields.map Prod.fst, j.Dated key) := by
  induction fields with
  | nil => exact fun o ↦ iff_of_true ⟨o, rfl⟩ (by simp)
  | cons f fields ih =>
    intro o
    rw [List.map_cons, List.map_cons, List.forall_mem_cons]
    exact returnsIff_append (returnsIff_singleton (returnsIff_readTimestamp f.1 f.2 j)) ih o

/-! ### What is read

The equations of the lines that return, as an assignment of what the value says or of what the field held
before. They are used from the first line to the last (`fromLines_cons`). -/

/-- The timestamp a line assigns, if any. -/
def Json.timestampAt (j : Json D) (key : Bytes) : Option ℕ :=
  (j.member? key).map fun
    | .str s => toNanoseconds s
    | _ => 0

/-- The double a line assigns, if any; what cannot be read counts as 0. -/
def doubleAt [Doubles D] (j : Json D) (key : Bytes) : Option D :=
  (j.member? key).map fun v ↦ (doubleFromJson lib j v).toOption.getD DoubleCasts.zero

/-- The integer a line assigns, if any; what cannot be read counts as 0. -/
def intAt [DoubleCasts D] (j : Json D) (key : Bytes) : Option ℤ :=
  (j.member? key).map fun v ↦ (intFromJson lib j v).toOption.getD 0

/-- The value a line assigns, if any; null and what cannot be read count as absent. -/
def Json.variableAt (j : Json D) (key : Bytes) (get : Json D → Except Bytes α) : Option α :=
  (j.member? key).bind fun v ↦ if v.isNull then none else (get v).toOption

theorem fromLines_cons {line : Reader D M} {lines : List (Reader D M)} {j : Json D} {o o' : M}
    (h : line j o = .ok o') : fromLines (line :: lines) j o = fromLines lines j o' := by
  rw [fromLines, List.foldlM_cons, h]
  rfl

/-- A field that keeps what it holds when nothing is read. -/
theorem elim_eq_assign {assign : M → α → M} (field : M → α) (hself : ∀ o, assign o (field o) = o)
    (o : M) (v : Option α) : v.elim o (assign o) = assign o (v.getD (field o)) := by
  rcases v with - | a
  · exact (hself o).symm
  · rfl

section Values

variable {lib} {j : Json D} (hj : lib.Prints j) {key : Bytes}

include hj

/-- **What a variable holds afterwards**: what was read, or what it held before. -/
theorem readVariable_eq {get : Json D → Except Bytes α} {assign : M → α → M} (field : M → α)
    (hself : ∀ o, assign o (field o) = o) (o : M) :
    readVariable lib key get assign j o =
      .ok (assign o ((j.variableAt key get).getD (field o))) := by
  rw [← elim_eq_assign field hself, readVariable, Json.variableAt]
  rcases j.member? key with - | v
  · rfl
  · dsimp only [Option.bind_some]
    split
    · rfl
    · rcases get v with what | a
      · -- reading threw: the object is printed, and the model is returned unchanged
        obtain ⟨text, htext⟩ := hj
        rw [Except.map, orLog, htext]
        rfl
      · rfl

/-- An integer, converted to the type of its field. -/
theorem readInt_eq [DoubleCasts D] (cast : ℤ → α) (assign : M → α → M) (field : M → α)
    (hself : ∀ o, assign o (field o) = o) (o : M) :
    readInt lib key (fun o x ↦ assign o (cast x)) j o =
      .ok (assign o (((intAt lib j key).map cast).getD (field o))) := by
  rw [← elim_eq_assign field hself, readInt, intAt]
  rcases j.member? key with - | v
  · rfl
  · obtain ⟨n, hn⟩ : ∃ n, intFromJson lib j v = .ok n := exists_orLog_eq_ok lib hj 0 _
    dsimp only [Option.map_some]
    rw [hn]
    rfl

/-- A double. -/
theorem readDouble_eq [Doubles D] {assign : M → D → M} (field : M → D)
    (hself : ∀ o, assign o (field o) = o) (o : M) :
    readDouble lib key assign j o = .ok (assign o ((doubleAt lib j key).getD (field o))) := by
  rw [← elim_eq_assign field hself, readDouble, doubleAt]
  rcases j.member? key with - | v
  · rfl
  · obtain ⟨x, hx⟩ : ∃ x, doubleFromJson lib j v = .ok x := exists_orLog_eq_ok lib hj _ _
    dsimp only [Option.map_some]
    rw [hx]
    rfl

end Values

/-- A timestamp, where its value can be read at all. -/
theorem readTimestamp_eq {j : Json D} {key : Bytes} (h : j.Dated key) {assign : M → ℕ → M}
    (field : M → ℕ) (hself : ∀ o, assign o (field o) = o) (o : M) :
    readTimestamp key assign j o = .ok (assign o ((j.timestampAt key).getD (field o))) := by
  rw [← elim_eq_assign field hself, readTimestamp, Json.timestampAt]
  rcases hfound : j.member? key with - | v
  · rfl
  · have hv := h v hfound
    cases v with
    | null => rfl
    | str s => rfl
    | _ => exact absurd hv (by simp [Json.isNull, Json.isString])

/-! ### Where a field comes from

For long models the equations are too much: only one field is asked for, and the other lines may throw or
not. `Reads` follows that one field. A line that does not assign it reads nothing for it, and there is a
simp lemma for each macro that says so. -/

/-- A computation that returned has returned from both of its parts. -/
theorem exists_of_bind_eq_ok {β : Type} {x : Except Bytes α} {f : α → Except Bytes β} {b : β}
    (h : x >>= f = .ok b) : ∃ a, x = .ok a ∧ f a = .ok b := by
  rcases x with what | a
  · exact absurd h (by simp [bind, Except.bind])
  · exact ⟨a, rfl, h⟩

/-- A mapped result comes from a result. -/
theorem exists_of_map_eq_ok {β : Type} {x : Except Bytes α} {f : α → β} {b : β} (h : x.map f = .ok b) :
    ∃ a, x = .ok a ∧ f a = b := by
  rcases x with what | a
  · exact absurd h (by simp [Except.map])
  · exact ⟨a, rfl, Except.ok.inj h⟩

/-- What a line that returns leaves in an optional field: what it has read there, if anything. -/
def Reader.Reads (line : Reader D M) (j : Json D) (field : M → Option α) (read : Option α) : Prop :=
  ∀ o o', line j o = .ok o' → field o' = read.or (field o)

/-- When the lines return, each of them has. -/
theorem exists_of_fromLines {lines : List (Reader D M)} {j : Json D} {line : Reader D M}
    (hmem : line ∈ lines) {o o' : M} (h : fromLines lines j o = .ok o') : ∃ o₁ o₂, line j o₁ = .ok o₂ := by
  induction lines generalizing o with
  | nil => exact absurd hmem List.not_mem_nil
  -- the model the line starts from is the one the lines before it have left
  | cons first lines ih =>
    rw [fromLines, List.foldlM_cons] at h
    obtain ⟨o₁, hfirst, h⟩ := exists_of_bind_eq_ok h
    rcases List.mem_cons.1 hmem with rfl | hmem
    · exact ⟨o, o₁, hfirst⟩
    · exact ih hmem h

/-- The double an optional line assigns, if any. -/
def optionalDoubleAt [Doubles D] (j : Json D) (key : Bytes) : Option D :=
  (j.member? key).bind fun v ↦ if v.isNull then none else (doubleFromJson lib j v).toOption

/-- Lines that each read one thing or nothing leave it alone once it is there. -/
theorem reads_fromLines_of_eq {lines : List (Reader D M)} {j : Json D} {field : M → Option α}
    {read : Option α} (hlines : ∀ line ∈ lines, line.Reads j field none ∨ line.Reads j field read) {o o' : M}
    (ho : field o = read) (h : fromLines lines j o = .ok o') : field o' = read := by
  induction lines generalizing o with
  | nil => exact Except.ok.inj h ▸ ho
  | cons line lines ih =>
    rw [List.forall_mem_cons] at hlines
    rw [fromLines, List.foldlM_cons] at h
    obtain ⟨o₁, hline, h⟩ := exists_of_bind_eq_ok h
    refine ih hlines.2 ?_ h
    rcases hlines.1 with hnone | hread
    · rw [hnone o o₁ hline, ho, Option.none_or]
    · rw [hread o o₁ hline, ho, Option.or_self]

/-- **A field comes from its line**, or from the model it began with, when no other line writes it. -/
theorem reads_fromLines_or {lines : List (Reader D M)} {j : Json D} {field : M → Option α}
    {read : Option α} (hlines : ∀ line ∈ lines, line.Reads j field none ∨ line.Reads j field read)
    {line : Reader D M} (hmem : line ∈ lines) (hline : line.Reads j field read) :
    (fromLines lines).Reads j field read := by
  induction lines with
  | nil => exact absurd hmem List.not_mem_nil
  | cons first lines ih =>
    intro o o' h
    rw [List.forall_mem_cons] at hlines
    rw [fromLines, List.foldlM_cons] at h
    obtain ⟨o₁, hfirst, h⟩ := exists_of_bind_eq_ok h
    have hread : first.Reads j field read → field o' = read.or (field o) := by
      intro hread
      rcases read with - | a
      · have hnone : ∀ line ∈ lines, line.Reads j field none ∨ line.Reads j field (field o) :=
          fun line hline ↦ .inl ((hlines.2 line hline).elim id id)
        exact reads_fromLines_of_eq hnone ((hread o o₁ hfirst).trans Option.none_or) h
      · exact reads_fromLines_of_eq hlines.2 (hread o o₁ hfirst) h
    rcases List.mem_cons.1 hmem with rfl | hmem
    · exact hread hline
    · rcases hlines.1 with hnone | hagain
      · rw [ih hlines.2 hmem o₁ o' h, hnone o o₁ hfirst, Option.none_or]
      · exact hread hagain

/-- A field that is always set. -/
theorem fromLines_getD {lines : List (Reader D M)} {j : Json D} {field : M → α} {read : Option α}
    (hlines : ∀ line ∈ lines, line.Reads j (fun o ↦ some (field o)) none ∨
      line.Reads j (fun o ↦ some (field o)) read)
    {line : Reader D M} (hmem : line ∈ lines) (hline : line.Reads j (fun o ↦ some (field o)) read)
    {o o' : M} (h : fromLines lines j o = .ok o') : field o' = read.getD (field o) := by
  have hfield : some (field o') = read.or (some (field o)) := reads_fromLines_or hlines hmem hline o o' h
  rcases read with - | a
  · exact Option.some.inj hfield
  · exact Option.some.inj hfield

/-- An optional field that is unset at first. -/
theorem reads_fromLines {lines : List (Reader D M)} {j : Json D} {field : M → Option α}
    {read : Option α} (hlines : ∀ line ∈ lines, line.Reads j field none ∨ line.Reads j field read)
    {line : Reader D M} (hmem : line ∈ lines) (hline : line.Reads j field read) {o o' : M}
    (ho : field o = none) (h : fromLines lines j o = .ok o') : field o' = read := by
  rw [reads_fromLines_or hlines hmem hline o o' h, ho, Option.or_none]

section Reads

variable {lib} {j : Json D} {key : Bytes} {γ : Type} {field : M → Option γ}

@[simp] theorem reads_none_readVariable {get : Json D → Except Bytes α} {assign : M → α → M}
    (hassign : ∀ o x, field (assign o x) = field o) :
    (readVariable lib key get assign).Reads j field none := by
  intro o o' h
  rw [readVariable] at h
  rw [Option.none_or]
  split at h
  · split at h
    · rw [Except.ok.inj h]
    · -- an exception that is caught leaves the model as it was
      rcases hget : get _ with what | x
      · rw [hget, Except.map, orLog] at h
        obtain ⟨-, -, rfl⟩ := exists_of_map_eq_ok h
        rfl
      · rw [hget, Except.map, orLog] at h
        rw [← Except.ok.inj h, hassign]
  · rw [Except.ok.inj h]

@[simp] theorem reads_none_readEnum {converter : Bytes → α} {assign : M → α → M}
    (hassign : ∀ o x, field (assign o x) = field o) :
    (readEnum lib key converter assign).Reads j field none := reads_none_readVariable hassign

/-- A line that does nothing for null. -/
theorem reads_of_eq {line : Reader D M} (key : Bytes) (next : Json D → M → Except Bytes M)
    {read : Json D → Option γ}
    (hline : ∀ o, line j o = (j.member? key).elim (.ok o) fun v ↦ if v.isNull then .ok o else next v o)
    (hnext : ∀ v o o', next v o = .ok o' → field o' = (read v).or (field o)) :
    line.Reads j field ((j.member? key).bind fun v ↦ if v.isNull then none else read v) := by
  intro o o' h
  rw [hline] at h
  rcases hv : j.member? key with - | v
  · rw [hv] at h
    rw [Option.bind_none, Option.none_or, ← Except.ok.inj h]
  · rw [hv, Option.elim_some] at h
    rw [Option.bind_some]
    split at h
    case isTrue hnull => rw [if_pos hnull, Option.none_or, Except.ok.inj h]
    case isFalse hnull =>
      rw [if_neg hnull]
      exact hnext v o o' h

/-- **The line of a field that is assigned what is read.** -/
theorem reads_readVariable {field : M → Option α} {get : Json D → Except Bytes α} {assign : M → α → M}
    (hassign : ∀ o x, field (assign o x) = some x) :
    (readVariable lib key get assign).Reads j field (j.variableAt key get) := by
  refine reads_of_eq key (fun v o ↦ orLog lib j o ((get v).map (assign o))) (fun o ↦ ?_) fun v o o' h ↦ ?_
  · rw [readVariable]
    rcases j.member? key with - | v <;> rfl
  · rcases hget : get v with what | x
    · rw [hget, Except.map, orLog] at h
      obtain ⟨-, -, rfl⟩ := exists_of_map_eq_ok h
      rfl
    · rw [hget, Except.map, orLog] at h
      rw [← Except.ok.inj h, hassign]
      rfl

/-- A line that assigns another field what it reads under its key. -/
theorem reads_none_of_eq {line : Reader D M} (key : Bytes) (read : Json D → Except Bytes α)
    {assign : M → α → M}
    (hline : ∀ o, line j o = (j.member? key).elim (.ok o) fun v ↦ (read v).map (assign o))
    (hassign : ∀ o x, field (assign o x) = field o) : line.Reads j field none := by
  intro o o' h
  rw [hline] at h
  rw [Option.none_or]
  rcases hv : j.member? key with - | v
  · rw [hv] at h
    rw [← Except.ok.inj h]
  · rw [hv] at h
    obtain ⟨x, -, rfl⟩ := exists_of_map_eq_ok h
    exact hassign o x

@[simp] theorem reads_none_readTimestamp {assign : M → ℕ → M} (hassign : ∀ o x, field (assign o x) = field o) :
    (readTimestamp key assign).Reads j field none := by
  refine reads_none_of_eq key nanosecondsFromJson (fun o ↦ ?_) hassign
  rw [readTimestamp]
  rcases j.member? key with - | v <;> rfl

variable [Doubles D]

@[simp] theorem reads_none_readDouble {assign : M → D → M} (hassign : ∀ o x, field (assign o x) = field o) :
    (readDouble lib key assign).Reads j field none := by
  refine reads_none_of_eq key (doubleFromJson lib j) (fun o ↦ ?_) hassign
  rw [readDouble]
  rcases j.member? key with - | v <;> rfl

@[simp] theorem reads_none_readBool {assign : M → Bool → M} (hassign : ∀ o x, field (assign o x) = field o) :
    (readBool key assign).Reads j field none := by
  refine reads_none_of_eq key (fun v ↦ .ok (boolFromJson v)) (fun o ↦ ?_) hassign
  rw [readBool]
  rcases j.member? key with - | v <;> rfl

@[simp] theorem reads_none_readOptionalDouble {assign : M → Option D → M}
    (hassign : ∀ o x, field (assign o x) = field o) :
    (readOptionalDouble lib key assign).Reads j field none := by
  intro o o' h
  rw [readOptionalDouble] at h
  rw [Option.none_or]
  split at h
  · split at h
    · rw [Except.ok.inj h]
    · obtain ⟨x, -, rfl⟩ := exists_of_map_eq_ok h
      exact hassign o _
  · rw [Except.ok.inj h]

/-- **The line of a flag.** -/
theorem reads_readBool {field : M → Option Bool} {assign : M → Bool → M}
    (hassign : ∀ o x, field (assign o x) = some x) :
    (readBool key assign).Reads j field ((j.member? key).map boolFromJson) := by
  intro o o' h
  rw [readBool] at h
  split at h
  case h_1 v hv => rw [hv, ← Except.ok.inj h, hassign, Option.map_some, Option.some_or]
  case h_2 hnone => rw [hnone, Option.map_none, Option.none_or, Except.ok.inj h]

/-- **The line of an optional double.** -/
theorem reads_readOptionalDouble {field : M → Option D} {assign : M → Option D → M}
    (hassign : ∀ o x, field (assign o x) = x) :
    (readOptionalDouble lib key assign).Reads j field (optionalDoubleAt lib j key) := by
  refine reads_of_eq key (fun v o ↦ (doubleFromJson lib j v).map fun x ↦ assign o (some x))
    (fun o ↦ ?_) fun v o o' h ↦ ?_
  · rw [readOptionalDouble]
    rcases j.member? key with - | v <;> rfl
  · obtain ⟨x, hx, rfl⟩ := exists_of_map_eq_ok h
    rw [hx, hassign]
    rfl

end Reads

end Macros

end Alpaca
