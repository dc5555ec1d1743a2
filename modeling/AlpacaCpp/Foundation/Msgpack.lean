import AlpacaCpp.Foundation.Words

/-!
# MessagePack objects

The grammar of the MessagePack specification, as far as it says where an object ends. The first byte of an
object has a `Format`: how many bytes belong to it, and how many objects are inside it. `Objects n` are the
byte strings of `n` objects one after the other, which is all that is needed to describe nesting: an object
is its `Head` followed by the objects inside it.

A map of `k` entries counts as `2 * k` objects inside, and neither keys nor values are told apart: for the
length of an object it does not matter what is in it. For the same reason the payload of a string or of an
extension is any bytes of the right number.

`skip` passes over objects with a counter of those still to come and no stack, and it is exact
(`skip_eq_some_iff`): it succeeds on the byte strings that begin with so many objects and on no others. So
**no object is the beginning of another** (`Objects.eq_of_append_eq`), which is what a reader relies on
that takes objects out of a longer text.
-/

namespace Msgpack

/-! ### The grammar -/

/-- What follows the first byte of an object. -/
inductive Format where
  /-- So many bytes. -/
  | payload (count : ℕ)
  /-- A length in so many bytes, and then as many bytes and `extra` more. -/
  | sized (lengthBytes extra : ℕ)
  /-- So many objects. -/
  | container (count : ℕ)
  /-- A number in so many bytes, and then `width` objects for each. -/
  | sizedContainer (countBytes width : ℕ)

/-- The formats of the specification; `0xC1` is never used. -/
def format (b : UInt8) : Option Format :=
  let n := b.toNat
  if n < 0x80 then some (.payload 0) -- positive fixint
  else if n < 0x90 then some (.container (2 * (n - 0x80))) -- fixmap
  else if n < 0xA0 then some (.container (n - 0x90)) -- fixarray
  else if n < 0xC0 then some (.payload (n - 0xA0)) -- fixstr
  else if 0xE0 ≤ n then some (.payload 0) -- negative fixint
  else
    match n with
    | 0xC1 => none
    -- bin 8, bin 16, bin 32
    | 0xC4 => some (.sized 1 0)
    | 0xC5 => some (.sized 2 0)
    | 0xC6 => some (.sized 4 0)
    -- ext 8, ext 16, ext 32, with the type byte behind the length
    | 0xC7 => some (.sized 1 1)
    | 0xC8 => some (.sized 2 1)
    | 0xC9 => some (.sized 4 1)
    -- float 32, float 64
    | 0xCA => some (.payload 4)
    | 0xCB => some (.payload 8)
    -- uint 8, uint 16, uint 32, uint 64, and the same with a sign
    | 0xCC => some (.payload 1)
    | 0xCD => some (.payload 2)
    | 0xCE => some (.payload 4)
    | 0xCF => some (.payload 8)
    | 0xD0 => some (.payload 1)
    | 0xD1 => some (.payload 2)
    | 0xD2 => some (.payload 4)
    | 0xD3 => some (.payload 8)
    -- fixext 1, 2, 4, 8 and 16, with the type byte
    | 0xD4 => some (.payload 2)
    | 0xD5 => some (.payload 3)
    | 0xD6 => some (.payload 5)
    | 0xD7 => some (.payload 9)
    | 0xD8 => some (.payload 17)
    -- str 8, str 16, str 32
    | 0xD9 => some (.sized 1 0)
    | 0xDA => some (.sized 2 0)
    | 0xDB => some (.sized 4 0)
    -- array 16, array 32, map 16, map 32
    | 0xDC => some (.sizedContainer 2 1)
    | 0xDD => some (.sizedContainer 4 1)
    | 0xDE => some (.sizedContainer 2 2)
    | 0xDF => some (.sizedContainer 4 2)
    -- nil, false, true
    | _ => some (.payload 0)

/-- An object up to the objects inside it, and the number of these. -/
inductive Head : Bytes → ℕ → Prop where
  | payload {b : UInt8} {count : ℕ} {body : Bytes} (hformat : format b = some (.payload count))
    (hbody : body.length = count) : Head (b :: body) 0
  | sized {b : UInt8} {lengthBytes extra : ℕ} {size body : Bytes}
    (hformat : format b = some (.sized lengthBytes extra)) (hsize : size.length = lengthBytes)
    (hbody : body.length = ofBigEndian size + extra) : Head (b :: (size ++ body)) 0
  | container {b : UInt8} {count : ℕ} (hformat : format b = some (.container count)) : Head [b] count
  | sizedContainer {b : UInt8} {countBytes width : ℕ} {count : Bytes}
    (hformat : format b = some (.sizedContainer countBytes width)) (hcount : count.length = countBytes) :
    Head (b :: count) (width * ofBigEndian count)

/-- So many objects, one after the other. -/
inductive Objects : ℕ → Bytes → Prop where
  | nil : Objects 0 []
  | cons {head rest : Bytes} {inside n : ℕ} (hhead : Head head inside) (hrest : Objects (inside + n) rest) :
    Objects (n + 1) (head ++ rest)

/-- One complete object. -/
def IsObject (data : Bytes) : Prop := Objects 1 data

/-! ### Passing over objects -/

/-- The number of objects inside the first object, and what follows its head. -/
def readHead : (data : Bytes) → Option (ℕ × Bytes)
  | [] => none
  | b :: data =>
    match format b with
    | none => none
    | some (.payload count) => if count ≤ data.length then some (0, data.drop count) else none
    | some (.sized lengthBytes extra) =>
      let body := data.drop lengthBytes
      let size := ofBigEndian (data.take lengthBytes) + extra
      if lengthBytes ≤ data.length ∧ size ≤ body.length then some (0, body.drop size) else none
    | some (.container count) => some (count, data)
    | some (.sizedContainer countBytes width) =>
      if countBytes ≤ data.length then
        some (width * ofBigEndian (data.take countBytes), data.drop countBytes)
      else none

/-- A head is read off, whatever follows it. -/
theorem readHead_append {head : Bytes} {inside : ℕ} (h : Head head inside) (rest : Bytes) :
    readHead (head ++ rest) = some (inside, rest) := by
  cases h with
  | payload hformat hbody =>
    rw [List.cons_append, readHead, hformat]
    simp [← hbody]
  | sized hformat hsize hbody =>
    rw [List.cons_append, readHead, hformat]
    simp [← hsize, ← hbody]
  | container hformat =>
    rw [List.cons_append, readHead, hformat]
    rfl
  | sizedContainer hformat hcount =>
    rw [List.cons_append, readHead, hformat]
    simp [← hcount]

/-- What is read off was a head. -/
theorem exists_of_readHead {data rest : Bytes} {inside : ℕ} (h : readHead data = some (inside, rest)) :
    ∃ head, Head head inside ∧ data = head ++ rest := by
  rcases data with - | ⟨b, data⟩
  · exact absurd h (by simp [readHead])
  rw [readHead] at h
  split at h
  case h_1 => exact absurd h (by simp)
  case h_2 count hformat =>
    obtain ⟨hle, rfl, rfl⟩ := by simpa using h
    exact ⟨b :: data.take count, .payload hformat (List.length_take_of_le hle), by simp⟩
  case h_3 lengthBytes extra hformat =>
    obtain ⟨⟨hle, hsize⟩, rfl, rfl⟩ := by simpa using h
    have hbody : ((data.drop lengthBytes).take (ofBigEndian (data.take lengthBytes) + extra)).length =
        ofBigEndian (data.take lengthBytes) + extra :=
      List.length_take_of_le (by rwa [List.length_drop])
    refine ⟨_, .sized hformat (List.length_take_of_le hle) hbody, ?_⟩
    rw [List.cons_append, List.append_assoc, ← List.drop_drop, List.take_append_drop, List.take_append_drop]
  case h_4 count hformat =>
    obtain ⟨rfl, rfl⟩ := by simpa using h
    exact ⟨[b], .container hformat, rfl⟩
  case h_5 countBytes width hformat =>
    obtain ⟨hle, rfl, rfl⟩ := by simpa using h
    exact ⟨b :: data.take countBytes, .sizedContainer hformat (List.length_take_of_le hle), by simp⟩

theorem Head.length_pos {head : Bytes} {inside : ℕ} (h : Head head inside) : 0 < head.length := by
  cases h <;> exact Nat.succ_pos _

/-- So what follows a head is shorter, which is why `skip` ends. -/
theorem length_lt_of_readHead {data rest : Bytes} {inside : ℕ} (h : readHead data = some (inside, rest)) :
    rest.length < data.length := by
  obtain ⟨head, hhead, rfl⟩ := exists_of_readHead h
  rw [List.length_append]
  exact Nat.lt_add_of_pos_left hhead.length_pos

/-- What follows so many objects. -/
def skip (n : ℕ) (data : Bytes) : Option Bytes :=
  match n with
  | 0 => some data
  | n + 1 =>
    match _h : readHead data with
    | none => none
    | some (inside, rest) => skip (inside + n) rest
termination_by data.length
decreasing_by exact length_lt_of_readHead _h

/-- Objects are skipped, whatever follows them. -/
theorem skip_append {n : ℕ} {objects : Bytes} (h : Objects n objects) (rest : Bytes) :
    skip n (objects ++ rest) = some rest := by
  induction h with
  | nil => rw [skip, List.nil_append]
  | cons hhead _ ih =>
    rw [skip, List.append_assoc, readHead_append hhead]
    exact ih

/-- What is skipped was objects. -/
theorem exists_of_skip {n : ℕ} {data rest : Bytes} (h : skip n data = some rest) :
    ∃ objects, Objects n objects ∧ data = objects ++ rest := by
  induction n, data using skip.induct with
  | case1 data =>
    rw [skip] at h
    exact ⟨[], .nil, Option.some_inj.1 h⟩
  | case2 data n hread =>
    rw [skip, hread] at h
    exact absurd h (by simp)
  | case3 data n inside rest' hread ih =>
    rw [skip, hread] at h
    obtain ⟨head, hhead, rfl⟩ := exists_of_readHead hread
    obtain ⟨objects, hobjects, rfl⟩ := ih h
    exact ⟨head ++ objects, .cons hhead hobjects, (List.append_assoc _ _ _).symm⟩

/-- **Passing over objects is exact.** -/
theorem skip_eq_some_iff {n : ℕ} {data rest : Bytes} :
    skip n data = some rest ↔ ∃ objects, Objects n objects ∧ data = objects ++ rest := by
  refine ⟨exists_of_skip, ?_⟩
  rintro ⟨objects, h, rfl⟩
  exact skip_append h rest

/-- **No object is the beginning of another.** -/
theorem Objects.eq_of_append_eq {n : ℕ} {objects objects' rest rest' : Bytes} (h : Objects n objects)
    (h' : Objects n objects') (heq : objects ++ rest = objects' ++ rest') :
    objects = objects' ∧ rest = rest' := by
  have hrest : some rest = some rest' := by rw [← skip_append h rest, heq, skip_append h' rest']
  obtain rfl := Option.some_inj.1 hrest
  exact ⟨List.append_cancel_right heq, rfl⟩

instance (data : Bytes) : Decidable (IsObject data) :=
  decidable_of_iff (skip 1 data = some []) (by
    rw [skip_eq_some_iff, IsObject]
    simp)

end Msgpack
