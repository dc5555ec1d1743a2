import AlpacaCpp.Foundation.Bytes
import AlpacaCpp.Foundation.Words
import Mathlib.Data.List.Lex
import Mathlib.Data.Option.Basic
import Mathlib.Data.Rat.Defs

/-!
# JSON values

`nlohmann::json` as data. Doubles stay abstract: `D` is their type, and `DoubleCasts` what converts them.
An object is the list of its members; `set` keeps that list sorted by key and its keys distinct, as the
library's `std::map` does, and `member?` is `contains` and `operator[]` in one.

Parsing and printing are the library's own and enter as the two functions of `JsonLibrary`. Both can
throw, and what is kept of the exception is its `what()`. No law is asked of them here: the results that
need one name it as a hypothesis, such as that what has been parsed can be printed.

A request is written member by member, many of them only if an optional is set. `assign` is one such line,
and `member?_assignAll` reads any member back from a list of them with distinct keys, which is all that is
needed to look a field up in the body of an order.
-/

namespace Alpaca

/-- The conversions of the source between integers and doubles. -/
class DoubleCasts (D : Type) where
  zero : D
  /-- `static_cast<double>` of a `uint64_t`. -/
  ofUInt64 : UInt64 → D
  /-- `static_cast<double>` of an `int64_t`. -/
  ofInt64 : Int64 → D
  /-- `static_cast<int64_t>` of a double. -/
  toInt64 : D → Int64

/-- Integers below 2⁵³ survive a conversion to double and back. -/
class LawfulDoubleCasts (D : Type) [DoubleCasts D] : Prop where
  toInt64_ofUInt64 : ∀ n : UInt64, n.toNat < 2 ^ 53 →
    (DoubleCasts.toInt64 (DoubleCasts.ofUInt64 n : D)).toInt = n.toNat
  toInt64_ofInt64 : ∀ n : Int64, n.toInt.natAbs < 2 ^ 53 →
    DoubleCasts.toInt64 (DoubleCasts.ofInt64 n : D) = n

/-- Doubles as the rationals they denote. -/
instance : DoubleCasts ℚ where
  zero := 0
  ofUInt64 v := v.toNat
  ofInt64 v := v.toInt
  toInt64 x := .ofInt (x.num.tdiv x.den)

instance : LawfulDoubleCasts ℚ where
  toInt64_ofUInt64 n hn := by
    show (Int64.ofInt ((n.toNat : ℤ).tdiv 1)).toInt = n.toNat
    rw [Int.tdiv_one, Int64.toInt_ofInt_of_le (by omega) (by omega)]
  toInt64_ofInt64 n _ := by
    show Int64.ofInt (n.toInt.tdiv 1) = n
    rw [Int.tdiv_one, Int64.ofInt_toInt]

/-- A JSON value. -/
inductive Json (D : Type) where
  | null
  | bool (b : Bool)
  | int (n : ℤ)
  | float (x : D)
  | str (s : Bytes)
  | arr (elems : List (Json D))
  | obj (members : List (Bytes × Json D))

/-- Parsing and printing. -/
structure JsonLibrary (D : Type) where
  /-- `json::parse` -/
  parse : Bytes → Except Bytes (Json D)
  /-- `dump`; it throws on a string that is not UTF-8. -/
  dump : Json D → Except Bytes Bytes

namespace Json

variable {D : Type}

/-- `contains(key)` and then `operator[]`; a value that is not an object contains nothing. -/
def member? : Json D → Bytes → Option (Json D)
  | obj members, key => members.lookup key
  | _, _ => none

/-- `j[key] = value` on the members of an object. -/
def setMember (key : Bytes) (value : Json D) : List (Bytes × Json D) → List (Bytes × Json D)
  | [] => [(key, value)]
  | (k, v) :: rest =>
    if key = k then (k, value) :: rest
    else if key < k then (key, value) :: (k, v) :: rest
    else (k, v) :: setMember key value rest

/-- `j[key] = value`. -/
def set (j : Json D) (key : Bytes) (value : Json D) : Json D :=
  match j with
  | obj members => obj (setMember key value members)
  | _ => j

/-- `if (c) j[key] = value;` -/
def setIf (j : Json D) (c : Prop) [Decidable c] (key : Bytes) (value : Json D) : Json D :=
  if c then j.set key value else j

/-- `if (value) j[key] = render(*value);` -/
def setOption {α : Type} (j : Json D) (key : Bytes) (render : α → Json D) (value : Option α) :
    Json D :=
  match value with
  | some a => j.set key (render a)
  | none => j

/-- `get<std::string>()`, which throws on anything else. -/
def getString : Json D → Except Bytes Bytes
  | str s => .ok s
  | _ => .error (bytes "type must be string")

/-- Looking a key up, with the comparison the other way round. -/
theorem lookup_cons_eq_ite (k k' : Bytes) (value : Json D) (members : List (Bytes × Json D)) :
    ((k', value) :: members).lookup k = if k = k' then some value else members.lookup k := by
  rw [List.lookup_cons]
  by_cases h : k = k'
  · rw [if_pos h, beq_iff_eq.2 h]
  · rw [if_neg h, beq_eq_false_iff_ne.2 h]

/-- Storing under one key changes what is found under that key only. -/
theorem lookup_setMember (key k : Bytes) (value : Json D) (members : List (Bytes × Json D)) :
    (setMember key value members).lookup k =
      if k = key then some value else members.lookup k := by
  induction members with
  | nil => rw [setMember, lookup_cons_eq_ite]
  | cons m rest ih =>
    obtain ⟨k', v⟩ := m
    rw [setMember]
    split
    case isTrue h =>
      subst h
      rw [lookup_cons_eq_ite, lookup_cons_eq_ite]
      split <;> rfl
    case isFalse h =>
      split
      case isTrue _ => rw [lookup_cons_eq_ite]
      case isFalse _ =>
        rw [lookup_cons_eq_ite, lookup_cons_eq_ite, ih]
        by_cases hk : k = k'
        · rw [if_pos hk, if_pos hk, if_neg fun hkey ↦ h (hkey.symm.trans hk)]
        · rw [if_neg hk, if_neg hk]

/-- **Assignment.** The key of an object reads back. -/
theorem member?_set_self (key : Bytes) (value : Json D) (members : List (Bytes × Json D)) :
    ((obj members).set key value).member? key = some value := by
  rw [set, member?, lookup_setMember, if_pos rfl]

/-- No other key is touched, whatever is assigned to. -/
theorem member?_set_of_ne {key k : Bytes} (h : k ≠ key) (j value : Json D) :
    (j.set key value).member? k = j.member? k := by
  cases j with
  | obj members => rw [set, member?, lookup_setMember, if_neg h, member?]
  | _ => rfl

/-- A member that is stored under a condition leaves the other keys alone. -/
theorem member?_setIf_of_ne {key k : Bytes} (h : k ≠ key) (j value : Json D) (c : Prop)
    [Decidable c] : (j.setIf c key value).member? k = j.member? k := by
  rw [setIf]
  split
  · exact member?_set_of_ne h j value
  · rfl

/-- A member that is stored if it is set leaves the other keys alone. -/
theorem member?_setOption_of_ne {α : Type} {key k : Bytes} (h : k ≠ key) (j : Json D)
    (render : α → Json D) (value : Option α) :
    (j.setOption key render value).member? k = j.member? k := by
  cases value with
  | none => rfl
  | some a => exact member?_set_of_ne h j _

/-- `is_object()` -/
def isObject : Json D → Bool
  | obj _ => true
  | _ => false

@[simp] theorem isObject_set (j : Json D) (key : Bytes) (value : Json D) :
    (j.set key value).isObject = j.isObject := by cases j <;> rfl

@[simp] theorem isObject_setIf (j : Json D) (c : Prop) [Decidable c] (key : Bytes)
    (value : Json D) : (j.setIf c key value).isObject = j.isObject := by
  rw [setIf]
  split
  · exact isObject_set j key value
  · rfl

@[simp] theorem isObject_setOption {α : Type} (j : Json D) (key : Bytes) (render : α → Json D)
    (value : Option α) : (j.setOption key render value).isObject = j.isObject := by
  cases value with
  | none => rfl
  | some a => exact isObject_set j key _

/-- An optional member of an object that has no such member yet is there exactly when it is set. -/
theorem member?_setOption_self {α : Type} {j : Json D} (hj : j.isObject = true) {key : Bytes}
    (hkey : j.member? key = none) (render : α → Json D) (value : Option α) :
    (j.setOption key render value).member? key = value.map render := by
  cases value with
  | none => exact hkey
  | some a =>
    cases j with
    | obj members => exact member?_set_self key _ members
    | _ => exact absurd hj (by simp [isObject])

/-! An object that is written member by member, each of them there or not. -/

/-- `j[key] = *value`, if there is a value. -/
def assign (j : Json D) (entry : Bytes × Option (Json D)) : Json D := j.setOption entry.1 id entry.2

/-- An object, written from the first member to the last. -/
def assignAll (entries : List (Bytes × Option (Json D))) : Json D := entries.foldl assign (obj [])

theorem set_eq_assign (j : Json D) (key : Bytes) (value : Json D) :
    j.set key value = j.assign (key, some value) := rfl

theorem setOption_eq_assign {α : Type} (j : Json D) (key : Bytes) (render : α → Json D)
    (value : Option α) : j.setOption key render value = j.assign (key, value.map render) := by
  cases value <;> rfl

theorem setIf_eq_assign {α : Type} (j : Json D) (c : Prop) [Decidable c] (key : Bytes)
    (render : α → Json D) (a : α) :
    j.setIf c key (render a) = j.assign (key, (if c then some a else none).map render) := by
  rw [setIf]
  split <;> rfl

/-- Keys that are written once read back. -/
theorem member?_foldl_assign {j : Json D} (hj : j.isObject = true)
    {entries : List (Bytes × Option (Json D))} (hkeys : (entries.map Prod.fst).Nodup)
    (hnew : ∀ e ∈ entries, j.member? e.1 = none) (key : Bytes) :
    (entries.foldl assign j).member? key = (entries.lookup key).elim (j.member? key) id := by
  induction entries generalizing j with
  | nil => rfl
  | cons e entries ih =>
    obtain ⟨k, value⟩ := e
    rw [List.map_cons, List.nodup_cons] at hkeys
    rw [List.forall_mem_cons] at hnew
    have hother : ∀ k', k' ≠ k → (j.assign (k, value)).member? k' = j.member? k' := fun k' hk' ↦
      member?_setOption_of_ne hk' j id value
    have hapart : ∀ e ∈ entries, e.1 ≠ k := fun e he heq ↦
      hkeys.1 (List.mem_map.2 ⟨e, he, heq⟩)
    have hrest : ∀ e ∈ entries, (j.assign (k, value)).member? e.1 = none := fun e he ↦
      (hother e.1 (hapart e he)).trans (hnew.2 e he)
    rw [List.foldl_cons, ih (by rw [assign, isObject_setOption, hj]) hkeys.2 hrest, List.lookup_cons]
    -- the head is the member that is looked up, or one of the tail: its key occurs once
    by_cases hkey : key = k
    · subst hkey
      have hnone : entries.lookup key = none := by
        rw [List.lookup_eq_none_iff]
        exact fun e he ↦ bne_iff_ne.2 (hapart e he).symm
      rw [hnone, beq_self_eq_true, Option.elim_none, assign, member?_setOption_self hj hnew.1, Option.map_id]
      rfl
    · rw [beq_eq_false_iff_ne.2 hkey, hother key hkey]

/-- **Every member of an object that is written with distinct keys reads back**, and there are no others. -/
theorem member?_assignAll {entries : List (Bytes × Option (Json D))}
    (hkeys : (entries.map Prod.fst).Nodup) (key : Bytes) :
    (assignAll entries).member? key = (entries.lookup key).join := by
  rw [assignAll, member?_foldl_assign rfl hkeys fun _ _ ↦ rfl]
  cases entries.lookup key <;> rfl

end Json

end Alpaca
