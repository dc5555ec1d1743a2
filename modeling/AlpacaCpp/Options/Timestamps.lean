import AlpacaCpp.Options.OptionMessages

/-!
# What `timestamp_from_ext` makes of an extension

`extInstant` reads an extension as MessagePack's specification of timestamps does: an instant in seconds
(signed in the longest encoding) and nanoseconds. `timestampFromExt_eq` is what the code returns for it: 0
before the epoch, and else the nanoseconds **modulo 2⁶⁴**. Only the longest encoding has room for an instant
that does not fit, so `timestampFromExt_exact_iff` is about the far future.

What is no timestamp extension has no instant, and the code returns 0 for it. So the two functions are
compared on every payload, and the one difference is an instant past the end of the word.
-/

namespace Alpaca

/-- The instant an extension denotes, in seconds and nanoseconds from the epoch; `none` if it is no
timestamp. -/
def extInstant : (data : Bytes) → Option (ℤ × ℕ)
  | [] => none
  | type :: payload =>
    if type = 0xFF then
      match payload.length with
      | 4 => some (ofBigEndian payload, 0)
      | 8 => some ((ofBigEndian payload % 2 ^ 34 : ℕ), ofBigEndian payload / 2 ^ 34)
      | 12 => some ((ofBigEndian (payload.drop 4) : ℤ).bmod (2 ^ 64), ofBigEndian (payload.take 4))
      | _ => none
    else none

/-- `load_big_endian` of bytes that are there. -/
theorem loadBigEndian_eq {data chunk rest : Bytes} {pos : ℕ} (h : data.drop pos = chunk ++ rest)
    (hcount : chunk.length ≤ 8) : loadBigEndian data pos chunk.length = some (ofBigEndian chunk) :=
  loadBigEndian_of_drop (by rw [h, bigEndian_ofBigEndian]) hcount (ofBigEndian_lt chunk)

/-- The cast to a signed word is the balanced remainder. -/
theorem int64OfWord_eq_bmod {x : ℕ} (hx : x < 2 ^ 64) : int64OfWord x = (x : ℤ).bmod (2 ^ 64) := by
  have hx' : (x : ℤ) < (2 ^ 64 : ℕ) := Int.ofNat_lt.2 hx
  rw [int64OfWord, Int.bmod_def, Int.emod_eq_of_lt (Int.natCast_nonneg x) hx']
  split <;> split <;> omega

/-- What `timestamp_from_ext` makes of an instant. -/
def nanosOfInstant (seconds : ℤ) (nanos : ℕ) : ℕ :=
  if seconds < 0 then 0 else ((seconds * nanosPerSecond + nanos) % 2 ^ 64).toNat

/-- An instant from the epoch on, in nanoseconds that may wrap. -/
theorem nanosOfInstant_natCast (seconds nanos : ℕ) :
    nanosOfInstant seconds nanos = u64 (seconds * nanosPerSecond + nanos) := by
  have hcast : (seconds : ℤ) * nanosPerSecond + nanos = (seconds * nanosPerSecond + nanos : ℕ) := by
    push_cast
    ring
  rw [nanosOfInstant, if_neg (Int.not_lt.2 (Int.natCast_nonneg seconds)), hcast, ← castU64,
    castU64_natCast]

theorem nanosOfInstant_signed (seconds : ℤ) (nanos : ℕ) :
    (if seconds < 0 then 0 else u64 (castU64 seconds * nanosPerSecond + nanos)) =
      nanosOfInstant seconds nanos := by
  rw [nanosOfInstant, ← u64_castU64_mul_add, Int.toNat_natCast]

/-- **What the code returns**, for every byte string. -/
theorem timestampFromExt_eq (data : Bytes) :
    timestampFromExt data = (extInstant data).elim 0 fun i ↦ nanosOfInstant i.1 i.2 := by
  have hsome : some (timestampFromExt data) = timestampFromExt? data := Option.some_get _
  rw [← Option.some_inj, hsome, timestampFromExt?]
  rcases data with - | ⟨type, payload⟩
  · rfl
  by_cases htype : type = 0xFF
  case neg => simp [extInstant, htype]
  case pos =>
    have hpayload : (type :: payload).drop 1 = payload ++ [] := (List.append_nil payload).symm
    simp only [extInstant, htype, List.length_cons, Nat.add_sub_cancel, if_true, Nat.succ_ne_zero, if_false,
      List.getElem?_cons_zero, Option.bind_eq_bind, Option.bind_some, ne_eq, not_true_eq_false]
    obtain hlen | hlen | hlen | ⟨h4, h8, h12⟩ : payload.length = 4 ∨ payload.length = 8 ∨ payload.length = 12 ∨
        payload.length ≠ 4 ∧ payload.length ≠ 8 ∧ payload.length ≠ 12 := by omega
    · have hload := loadBigEndian_eq hpayload (by omega)
      rw [hlen, htype] at hload
      simp only [hload, hlen, Option.bind_some, Option.pure_def]
      rw [Option.elim_some, nanosOfInstant_natCast, Nat.add_zero]
    · have hload := loadBigEndian_eq hpayload (by omega)
      rw [hlen, htype] at hload
      have hlow : ofBigEndian payload &&& 0x3FFFFFFFF = ofBigEndian payload % 2 ^ 34 :=
        Nat.and_two_pow_sub_one_eq_mod _ 34
      simp only [hload, hlen, Option.bind_some, Option.pure_def, hlow, Nat.shiftRight_eq_div_pow]
      rw [Option.elim_some, nanosOfInstant_natCast]
    · have hnanos := loadBigEndian_eq (show (type :: payload).drop 1 = payload.take 4 ++ payload.drop 4 from
        (payload.take_append_drop 4).symm) (by rw [List.length_take]; omega)
      have hseconds := loadBigEndian_eq (show (type :: payload).drop 5 = payload.drop 4 ++ [] from
        (List.append_nil _).symm) (by rw [List.length_drop]; omega)
      have hbound := ofBigEndian_lt (payload.drop 4)
      rw [List.length_take, hlen, htype, min_eq_left (by decide)] at hnanos
      rw [List.length_drop, hlen, htype] at hseconds
      rw [List.length_drop, hlen] at hbound
      have hword := int64OfWord_eq_bmod (hbound.trans_eq (by norm_num))
      simp only [hnanos, hseconds, hlen, Option.bind_some, Option.pure_def, hword]
      rw [Option.elim_some, nanosOfInstant_signed]
    · simp

/-! ### The nanoseconds of an instant -/

/-- An instant in nanoseconds from the epoch. -/
def nanosSinceEpoch (seconds : ℤ) (nanos : ℕ) : ℤ := seconds * 10 ^ 9 + nanos

/-- What is asked of `timestamp_from_ext`: the nanoseconds of an instant if 64 bits can hold them, and 0 for
anything else. -/
structure TimestampExact (data : Bytes) : Prop where
  foreign : extInstant data = none → timestampFromExt data = 0
  instant : ∀ seconds nanos, extInstant data = some (seconds, nanos) → nanos ≤ 999999999 →
    (timestampFromExt data : ℤ) =
      if 0 ≤ nanosSinceEpoch seconds nanos ∧ nanosSinceEpoch seconds nanos < 2 ^ 64 then
        nanosSinceEpoch seconds nanos
      else 0

/-- The shorter encodings have no room for an instant that does not fit. -/
theorem nanosSinceEpoch_lt_of_short {data : Bytes} {seconds : ℤ} {nanos : ℕ}
    (hinstant : extInstant data = some (seconds, nanos)) (hshort : data.length ≠ 13) :
    nanosSinceEpoch seconds nanos < 2 ^ 64 := by
  rcases data with - | ⟨type, payload⟩
  · simp [extInstant] at hinstant
  have hbound := ofBigEndian_lt payload
  rw [extInstant] at hinstant
  split at hinstant
  case isFalse => simp at hinstant
  case isTrue =>
    split at hinstant
    case h_1 hlen =>
      obtain ⟨rfl, rfl⟩ : (ofBigEndian payload : ℤ) = seconds ∧ 0 = nanos := by simpa using hinstant
      rw [hlen] at hbound
      rw [nanosSinceEpoch]
      omega
    case h_2 hlen =>
      obtain ⟨rfl, rfl⟩ : ((ofBigEndian payload % 2 ^ 34 : ℕ) : ℤ) = seconds ∧
        ofBigEndian payload / 2 ^ 34 = nanos := by simpa using hinstant
      rw [hlen] at hbound
      rw [nanosSinceEpoch]
      omega
    case h_3 hlen => exact absurd (congrArg (· + 1) hlen) hshort
    case h_4 => simp at hinstant

/-- The code's nanoseconds are the right ones, unless they wrap. -/
theorem nanosOfInstant_eq_iff {seconds : ℤ} {nanos : ℕ} (hnanos : nanos ≤ 999999999) :
    ((nanosOfInstant seconds nanos : ℤ) =
      if 0 ≤ nanosSinceEpoch seconds nanos ∧ nanosSinceEpoch seconds nanos < 2 ^ 64 then
        nanosSinceEpoch seconds nanos
      else 0) ↔
    nanosSinceEpoch seconds nanos < 2 ^ 64 ∨ 2 ^ 64 ∣ nanosSinceEpoch seconds nanos := by
  have hvalue : seconds * nanosPerSecond + nanos = nanosSinceEpoch seconds nanos := by
    rw [nanosSinceEpoch, nanosPerSecond]
    norm_num
  have hsign : seconds < 0 ↔ nanosSinceEpoch seconds nanos < 0 := by
    rw [nanosSinceEpoch]
    omega
  rw [nanosOfInstant, hvalue]
  simp only [hsign]
  generalize nanosSinceEpoch seconds nanos = value
  split <;> split <;> omega

/-- **Exactly when `timestamp_from_ext` is right**: unless the extension is a timestamp 96 past the last
instant that 64 bits hold, and not a whole number of wraps past it. -/
theorem timestampFromExt_exact_iff (data : Bytes) :
    TimestampExact data ↔ ∀ seconds nanos, extInstant data = some (seconds, nanos) → data.length = 13 →
      nanos ≤ 999999999 → nanosSinceEpoch seconds nanos < 2 ^ 64 ∨
        2 ^ 64 ∣ nanosSinceEpoch seconds nanos := by
  have hcode : ∀ {seconds nanos}, extInstant data = some (seconds, nanos) →
      timestampFromExt data = nanosOfInstant seconds nanos := by
    intro seconds nanos hinstant
    rw [timestampFromExt_eq, hinstant, Option.elim_some]
  constructor
  · rintro ⟨-, hexact⟩ seconds nanos hinstant - hnanos
    have hvalue := hexact seconds nanos hinstant hnanos
    rw [hcode hinstant] at hvalue
    exact (nanosOfInstant_eq_iff hnanos).1 hvalue
  · intro hfits
    refine ⟨fun hforeign ↦ ?_, fun seconds nanos hinstant hnanos ↦ ?_⟩
    · rw [timestampFromExt_eq, hforeign, Option.elim_none]
    · rw [hcode hinstant, nanosOfInstant_eq_iff hnanos]
      by_cases hlen : data.length = 13
      · exact hfits seconds nanos hinstant hlen hnanos
      · exact Or.inl (nanosSinceEpoch_lt_of_short hinstant hlen)

/-- The second in which 64 bits run out, in the longest encoding: the code returns an instant of 1970. -/
theorem not_timestampExact :
    timestampFromExt (0xFF :: bigEndian 4 0 ++ bigEndian 8 18446744074) = 290448384 ∧
      ¬TimestampExact (0xFF :: bigEndian 4 0 ++ bigEndian 8 18446744074) := by
  have hcode : timestampFromExt (0xFF :: bigEndian 4 0 ++ bigEndian 8 18446744074) = 290448384 := by
    decide +kernel
  refine ⟨hcode, fun h ↦ ?_⟩
  have hvalue := h.instant 18446744074 0 (by decide +kernel) (by decide)
  rw [hcode] at hvalue
  exact absurd hvalue (by decide +kernel)

end Alpaca
