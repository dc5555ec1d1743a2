import AlpacaCpp.Core.Extraction

/-!
# Values inside values

The lines of a `from_json` that read another model: `STRUCT_FROM_JSON`, and the arrays and the keyed
objects that `get` turns into a `std::vector` or a map. None of them catches, so an exception anywhere
inside leaves the outermost `from_json`.

`Json.Under` is a condition on the value under a key, for when there is one. What such a line asks for is
always of that form, with the condition of the inner model in it, and so the condition under which a
nested document can be read is put together from those of its parts:

* `returnsIff_readStruct` for a model under a key, where null is passed over;
* `returnsIff_readVector` for an array of models, where anything but an array is passed over;
* `exists_getValues_iff` for the keyed objects of the latest endpoints.

`JsonLibrary.PrintsAll` is what the lines that log ask of a document. They print the innermost object they
look at, so every part of the document has to print, and whatever a parse has made does
(`JsonLibrary.ParsedPrints`).

Lines that find nothing are no-ops (`Reader.Idle`), so an object without their keys is read as the model it
was before. The last section says what the lines put in their field, for the models whose value matters and
not only whether they can be read.
-/

namespace Alpaca

variable {D M N : Type}

/-- The value under a key, if there is one, meets a condition. -/
def Json.Under (j : Json D) (key : Bytes) (p : Json D → Prop) : Prop :=
  ∀ v, j.member? key = some v → p v

/-- Nothing is asked of a value that is not there. -/
theorem Json.under_of_none {j : Json D} {key : Bytes} {p : Json D → Prop} (h : j.member? key = none) :
    j.Under key p := fun v hv ↦ absurd (h.symm.trans hv) (by simp)

/-- The condition speaks of the one value under the key. -/
theorem Json.under_of_some {j v : Json D} {key : Bytes} {p : Json D → Prop}
    (h : j.member? key = some v) : j.Under key p ↔ p v :=
  ⟨fun hu ↦ hu v h, fun hv _ hv' ↦ Option.some.inj (h.symm.trans hv') ▸ hv⟩

/-- What is under a key is a part of the object. -/
theorem Json.part_of_member? {j k v : Json D} {key : Bytes} (h : j.member? key = some v) (hk : Part k v) :
    Part k j := by
  cases j with
  | obj members =>
    obtain ⟨front, back, rfl, -⟩ := List.lookup_eq_some_iff.1 h
    exact .member (List.mem_append_right _ List.mem_cons_self) hk
  | _ => exact absurd h (by simp [Json.member?])

/-- Every part of a value can be printed. -/
def JsonLibrary.PrintsAll (lib : JsonLibrary D) (j : Json D) : Prop := ∀ k, Json.Part k j → lib.Prints k

namespace JsonLibrary.PrintsAll

variable {lib : JsonLibrary D} {j v : Json D}

theorem self (h : lib.PrintsAll j) : lib.Prints j := h j (.self j)

theorem of_member? {key : Bytes} (h : lib.PrintsAll j) (hv : j.member? key = some v) : lib.PrintsAll v :=
  fun k hk ↦ h k (Json.part_of_member? hv hk)

/-- The parts of an element of an array are parts of the array. -/
theorem of_elem {elems : List (Json D)} (h : lib.PrintsAll (.arr elems)) (hv : v ∈ elems) : lib.PrintsAll v :=
  fun k hk ↦ h k (.elem hv hk)

/-- The parts of a value of a keyed object are parts of the object. -/
theorem of_value {members : List (Bytes × Json D)} {m : Bytes × Json D} (h : lib.PrintsAll (.obj members))
    (hm : m ∈ members) : lib.PrintsAll m.2 := fun k hk ↦ h k (.member hm hk)

/-- What has been parsed prints as a whole and in each of its parts. -/
theorem of_parse {text : Bytes} (hlib : lib.ParsedPrints) (h : lib.parse text = .ok j) : lib.PrintsAll j :=
  fun k hk ↦ hlib text j k h hk

end JsonLibrary.PrintsAll

/-- A converter behind `get`. -/
theorem Json.variableAt_map {α β : Type} (j : Json D) (key : Bytes) (get : Json D → Except Bytes α)
    (f : α → β) : j.variableAt key (fun v ↦ (get v).map f) = (j.variableAt key get).map f := by
  rw [Json.variableAt, Json.variableAt]
  rcases j.member? key with - | v
  · rfl
  · rw [Option.bind_some, Option.bind_some]
    split
    · rfl
    · rcases get v with what | a <;> rfl

/-- All elements of an array meet a condition; what is not an array is not looked at. -/
def Json.EachElem (p : Json D → Prop) (v : Json D) : Prop := ∀ elems, v = .arr elems → ∀ e ∈ elems, p e

/-- All values of an object meet a condition; what is not an object is not looked at. -/
def Json.EachValue (p : Json D → Prop) (v : Json D) : Prop :=
  ∀ members, v = .obj members → ∀ m ∈ members, p m.2

/-! ### Lines -/

/-- `STRUCT_FROM_JSON` -/
def readStruct (key : Bytes) (fromJson : Reader D N) (field : M → N) (assign : M → N → M) : Reader D M :=
  fun j o ↦
    match j.member? key with
    | some v => if v.isNull then .ok o else (fromJson v (field o)).map (assign o)
    | none => .ok o

/-- `get<std::vector<N>>()` of an array. -/
def getElems (fromJson : Reader D N) (default : N) (elems : List (Json D)) : Except Bytes (List N) :=
  elems.mapM fun e ↦ fromJson e default

/-- `if (j.contains(key) && j[key].is_array()) o.field = j[key].get<std::vector<N>>();` -/
def readVector (key : Bytes) (fromJson : Reader D N) (default : N) (assign : M → List N → M) : Reader D M :=
  fun j o ↦
    match j.member? key with
    | some (.arr elems) => (getElems fromJson default elems).map (assign o)
    | _ => .ok o

/-- `get<symbol_map<N>>()` of an object, in the order of its keys. -/
def getValues (fromJson : Reader D N) (default : N) (members : List (Bytes × Json D)) :
    Except Bytes (List (Bytes × N)) :=
  members.mapM fun m ↦ (fromJson m.2 default).map fun x ↦ (m.1, x)

/-- `if (j.contains(key) && !j[key].is_null()) o.field = j[key].get<std::string>();`, with no `try`
around it. -/
def readToken (key : Bytes) (assign : M → Bytes → M) : Reader D M := fun j o ↦
  match j.member? key with
  | some v => if v.isNull then .ok o else v.getString.map (assign o)
  | none => .ok o

/-- `if (j.contains(key) && !j[key].is_null()) o.field = int_from_json(j, key);` -/
def readOptionalInt [DoubleCasts D] (lib : JsonLibrary D) (key : Bytes) (assign : M → ℤ → M) : Reader D M :=
  fun j o ↦
    match j.member? key with
    | some v => if v.isNull then .ok o else (intFromJson lib j v).map (assign o)
    | none => .ok o

/-- A line that computes a field from those read before it. -/
def compute (f : M → M) : Reader D M := fun _ o ↦ .ok (f o)

/-! ### What they ask for -/

section Returns

variable {j : Json D} {fromJson : Reader D N} {p : Json D → Prop}

/-- **A model under a key** is asked of its value, unless that is null. -/
theorem returnsIff_readStruct {key : Bytes} (h : ∀ v, j.member? key = some v → fromJson.ReturnsIff v (p v))
    (field : M → N) (assign : M → N → M) :
    (readStruct key fromJson field assign).ReturnsIff j
      (j.Under key fun v ↦ v.isNull = true ∨ p v) := by
  intro o
  rw [readStruct]
  rcases hv : j.member? key with - | v
  · exact iff_of_true ⟨o, rfl⟩ (Json.under_of_none hv)
  · rw [Json.under_of_some hv]
    dsimp only
    split
    case isTrue hnull => exact iff_of_true ⟨o, rfl⟩ (.inl hnull)
    case isFalse hnull =>
      rw [exists_map_eq_ok, h v hv (field o)]
      exact ⟨.inr, fun hp ↦ hp.resolve_left hnull⟩

/-- An array is read when each of its elements is. -/
theorem exists_getElems_iff {default : N} {elems : List (Json D)}
    (h : ∀ e ∈ elems, fromJson.ReturnsIff e (p e)) :
    (∃ xs, getElems fromJson default elems = .ok xs) ↔ ∀ e ∈ elems, p e :=
  (exists_mapM_eq_ok elems).trans (forall₂_congr fun e he ↦ h e he default)

/-- **An array under a key.** Anything but an array there is passed over, as if the key were absent. -/
theorem returnsIff_readVector {key : Bytes} {default : N} (h : ∀ elems, j.member? key = some (.arr elems) →
      ∀ e ∈ elems, fromJson.ReturnsIff e (p e)) (assign : M → List N → M) :
    (readVector key fromJson default assign).ReturnsIff j (j.Under key (Json.EachElem p)) := by
  intro o
  rw [readVector]
  rcases hv : j.member? key with - | v
  · exact iff_of_true ⟨o, rfl⟩ (Json.under_of_none hv)
  · rw [Json.under_of_some hv]
    cases v with
    | arr elems =>
      rw [exists_map_eq_ok, exists_getElems_iff (h elems hv)]
      exact ⟨fun hp elems' heq ↦ Json.arr.inj heq ▸ hp, fun hp ↦ hp elems rfl⟩
    | _ => exact iff_of_true ⟨o, rfl⟩ fun elems heq ↦ absurd heq (by simp)

/-- An array whose elements never throw. -/
theorem total_readVector {key : Bytes} {default : N} (h : ∀ elems, j.member? key = some (.arr elems) →
      ∀ e ∈ elems, fromJson.Total e) (assign : M → List N → M) :
    (readVector key fromJson default assign).Total j := fun o ↦
  (returnsIff_readVector (p := fun _ ↦ True) (fun elems helems e he ↦ (h elems helems e he).returnsIff) assign
    o).2 fun _ _ _ _ _ _ ↦ trivial

/-- A keyed object is read when each of its values is; its keys are not looked at. -/
theorem exists_getValues_iff {default : N} {members : List (Bytes × Json D)}
    (h : ∀ m ∈ members, fromJson.ReturnsIff m.2 (p m.2)) :
    (∃ xs, getValues fromJson default members = .ok xs) ↔ ∀ m ∈ members, p m.2 :=
  (exists_mapM_eq_ok members).trans (forall₂_congr fun m hm ↦ exists_map_eq_ok.trans (h m hm default))

/-- An optional integer is read or logged. -/
theorem total_readOptionalInt [DoubleCasts D] {lib : JsonLibrary D} (hj : lib.Prints j) (key : Bytes)
    (assign : M → ℤ → M) : (readOptionalInt lib key assign).Total j := by
  intro o
  rw [readOptionalInt]
  rcases j.member? key with - | v
  · exact ⟨o, rfl⟩
  · dsimp only
    split
    · exact ⟨o, rfl⟩
    · obtain ⟨n, hn⟩ : ∃ n, intFromJson lib j v = .ok n := exists_orLog_eq_ok lib hj 0 _
      rw [hn]
      exact ⟨_, rfl⟩

/-- What is computed from the model alone does not throw. -/
theorem total_compute (f : M → M) (j : Json D) : (compute f).Total j := fun o ↦ ⟨f o, rfl⟩

@[simp] theorem reads_none_compute {α : Type} {field : M → Option α} {f : M → M}
    (hf : ∀ o, field (f o) = field o) : (compute f).Reads j field none := fun o _ h ↦
  Except.ok.inj h ▸ (hf o).trans Option.none_or.symm

/-- A scalar of any type is read as its text, when the value can be printed. -/
theorem total_readString {lib : JsonLibrary D} {key : Bytes} (h : j.Under key lib.Prints)
    (assign : M → Bytes → M) : (readString lib key assign).Total j := by
  intro o
  rw [readString]
  rcases hv : j.member? key with - | v
  · exact ⟨o, rfl⟩
  · dsimp only
    split
    · exact ⟨o, rfl⟩
    · obtain ⟨text, htext⟩ := h v hv
      rw [exists_map_eq_ok]
      cases v with
      | null => exact ⟨_, rfl⟩
      | str s => exact ⟨_, rfl⟩
      | _ => exact ⟨text, htext⟩

/-- Lines one after the other, each with what it asks for. -/
theorem returnsIff_cons {line : Reader D M} {lines : List (Reader D M)} {p q : Prop}
    (h : line.ReturnsIff j p) (h' : (fromLines lines).ReturnsIff j q) :
    (fromLines (line :: lines)).ReturnsIff j (p ∧ q) :=
  returnsIff_append (returnsIff_singleton h) h'

/-- A line that does not throw asks for nothing. -/
theorem returnsIff_total_cons {line : Reader D M} {lines : List (Reader D M)} {q : Prop}
    (h : line.Total j) (h' : (fromLines lines).ReturnsIff j q) :
    (fromLines (line :: lines)).ReturnsIff j q := by
  intro o
  rw [returnsIff_cons h.returnsIff h' o, true_and]

theorem returnsIff_nil : (fromLines ([] : List (Reader D M))).ReturnsIff j True :=
  fun o ↦ iff_of_true ⟨o, rfl⟩ trivial

end Returns

/-- A loop that returns has made one result of each element, in order. -/
theorem forall₂_of_mapM_eq_ok {α β : Type} {f : α → Except Bytes β} {as : List α} {bs : List β}
    (h : as.mapM f = .ok bs) : List.Forall₂ (fun a b ↦ f a = .ok b) as bs := by
  induction as generalizing bs with
  | nil => exact Except.ok.inj h ▸ .nil
  | cons a as ih =>
    rw [List.mapM_cons] at h
    obtain ⟨b, hb, h⟩ := exists_of_bind_eq_ok h
    obtain ⟨bs', hbs, h⟩ := exists_of_bind_eq_ok h
    exact Except.ok.inj h ▸ .cons hb (ih hbs)

/-! ### Nothing to read -/

/-- A reader that does nothing on `j`. -/
def Reader.Idle (line : Reader D M) (j : Json D) : Prop := ∀ o, line j o = .ok o

/-- Lines that find nothing leave the model as it is. -/
theorem idle_fromLines {lines : List (Reader D M)} {j : Json D} (h : ∀ line ∈ lines, line.Idle j) :
    (fromLines lines).Idle j := by
  induction lines with
  | nil => exact fun _ ↦ rfl
  | cons line lines ih =>
    rw [List.forall_mem_cons] at h
    intro o
    rw [fromLines, List.foldlM_cons, h.1 o]
    exact ih h.2 o

section Idle

variable {α : Type} {lib : JsonLibrary D} {j : Json D} {key : Bytes} (h : j.member? key = none)

include h

/-- A line whose key is absent finds nothing, whichever macro it is written with. -/
theorem idle_readVariable (get : Json D → Except Bytes α) (assign : M → α → M) :
    (readVariable lib key get assign).Idle j := fun o ↦ by rw [readVariable, h]

theorem idle_readEnum (converter : Bytes → α) (assign : M → α → M) :
    (readEnum lib key converter assign).Idle j := idle_readVariable h _ assign

theorem idle_readTimestamp (assign : M → ℕ → M) : (readTimestamp key assign).Idle j :=
  fun o ↦ by rw [readTimestamp, h]

variable [Doubles D]

theorem idle_readDouble (assign : M → D → M) : (readDouble lib key assign).Idle j :=
  fun o ↦ by rw [readDouble, h]

theorem idle_readOptionalDouble (assign : M → Option D → M) :
    (readOptionalDouble lib key assign).Idle j := fun o ↦ by rw [readOptionalDouble, h]

theorem idle_readBool (assign : M → Bool → M) : (readBool key assign).Idle j :=
  fun o ↦ by rw [readBool, h]

end Idle

/-! ### What they read -/

/-- A struct that is there and not null is read by its own `from_json`, from what the field holds. -/
theorem readStruct_eq {j : Json D} {key : Bytes} {fromJson : Reader D N} (field : M → N) {assign : M → N → M}
    {x : N} (o : M) (hself : assign o (field o) = o)
    (h : (j.member? key).elim (.ok (field o)) (fun v ↦ if v.isNull then .ok (field o)
      else fromJson v (field o)) = .ok x) :
    readStruct key fromJson field assign j o = .ok (assign o x) := by
  rw [readStruct]
  rcases hv : j.member? key with - | v
  · rw [hv, Option.elim_none] at h
    rw [← Except.ok.inj h, hself]
  · rw [hv, Option.elim_some] at h
    dsimp only
    split
    case isTrue hnull =>
      rw [if_pos hnull] at h
      rw [← Except.ok.inj h, hself]
    case isFalse hnull =>
      rw [if_neg hnull] at h
      rw [h]
      rfl

section Optional

variable [Doubles D] {lib : JsonLibrary D} {j : Json D} (hj : lib.Prints j) {key : Bytes}

include hj

/-- An optional double that is unset at first holds what is read, if anything. -/
theorem readOptionalDouble_eq {assign : M → Option D → M} (field : M → Option D) (o : M)
    (hself : assign o (field o) = o) (hnone : field o = none) :
    readOptionalDouble lib key assign j o = .ok (assign o (optionalDoubleAt lib j key)) := by
  rw [readOptionalDouble, optionalDoubleAt]
  rcases j.member? key with - | v
  · rw [Option.bind_none, ← hnone, hself]
  · rw [Option.bind_some]
    dsimp only
    split
    · rw [← hnone, hself]
    · obtain ⟨x, hx⟩ : ∃ x, doubleFromJson lib j v = .ok x := exists_orLog_eq_ok lib hj _ _
      rw [hx]
      rfl

end Optional

end Alpaca
