import AlpacaCpp.Options.Decoder
import AlpacaCpp.Streaming.HandleFrame
import AlpacaCpp.Time.RoundTrip

/-!
# Option messages, packed and as text

An option message is a set of fields with string names (`WireMessage`). It can be packed as MessagePack
(`pack`), with instants as one of the three timestamp extensions, and written as JSON (`json`), with
instants as RFC 3339 text.

The two readers of the SDK share no code: the visitor fills slots from the packed form, the macros
extract fields from the JSON object. For each documented type of a field there is one lemma here that
they read the same (`text_agree` and those behind it), whatever else the message holds.

The names of a message are distinct, so the last accepted value of a slot is the only one under its key
(`foldl_lookup`). Where the field is missing both readers leave the default. An instant is printed and
parsed again on the one side, which is a round trip of `Time/RoundTrip`, and packed and unpacked on the
other (`timestampFromExt_timestampExt`): every encoding that has room for it gives it back.
-/

namespace Alpaca

/-! ### Timestamp extensions

The three encodings of MessagePack, written most significant byte first and read back by the loads of the
visitor. Each is a round trip for the instants it has room for. -/

/-- The three encodings of the timestamp extension. -/
inductive TimestampForm where
  | timestamp32 | timestamp64 | timestamp96
  deriving DecidableEq

/-- Whether an encoding has room for an instant. -/
def TimestampForm.Holds (ns : ℕ) : TimestampForm → Prop
  | timestamp32 => ns % nanosPerSecond = 0 ∧ ns / nanosPerSecond < 2 ^ 32
  | timestamp64 => ns / nanosPerSecond < 2 ^ 34
  | timestamp96 => True

/-- An instant as an extension: seconds; nanoseconds above 34 bits of seconds; or nanoseconds, then
seconds. -/
def timestampExt (ns : ℕ) : TimestampForm → Bytes
  | .timestamp32 => 0xFF :: bigEndian 4 (ns / nanosPerSecond)
  | .timestamp64 => 0xFF :: bigEndian 8 (ns % nanosPerSecond * 2 ^ 34 + ns / nanosPerSecond)
  | .timestamp96 => 0xFF :: bigEndian 4 (ns % nanosPerSecond) ++ bigEndian 8 (ns / nanosPerSecond)

/-- The loop of `load_big_endian`, on a number that is there. -/
theorem loadBigEndianFrom_of_drop {data r : Bytes} {pos count value x : ℕ}
    (h : data.drop pos = bigEndian count x ++ r) (hfits : (value + 1) * 256 ^ count ≤ 2 ^ 64) :
    loadBigEndianFrom data pos count value = some (value * 256 ^ count + x % 256 ^ count) := by
  induction count generalizing pos value with
  | zero => rw [loadBigEndianFrom, pow_zero, Nat.mod_one, Nat.mul_one, Nat.add_zero]
  | succ count ih =>
    have hdigit : x / 256 ^ count % 256 < 256 := Nat.mod_lt _ (by decide)
    generalize hd : x / 256 ^ count % 256 = digit at hdigit
    rw [bigEndian, hd, List.cons_append] at h
    rw [pow_succ, mul_comm (256 ^ count) 256, ← mul_assoc] at hfits
    have hpos : 0 < 256 ^ count := by positivity
    have hword : value * 256 < 2 ^ 64 := by nlinarith
    have hstep : (u64 (value <<< 8) ||| (UInt8.ofNat digit).toNat) = value * 256 + digit := by
      rw [UInt8.toNat_ofNat_of_lt' hdigit, u64_of_lt (by rwa [Nat.shiftLeft_eq]),
        ← Nat.shiftLeft_add_eq_or_of_lt (i := 8) hdigit, Nat.shiftLeft_eq]
    rw [loadBigEndianFrom, lookup_of_drop h, Option.bind_eq_bind, Option.bind_some, hstep,
      ih (drop_succ_of_drop h) (le_trans (Nat.mul_le_mul_right _ (by omega)) hfits), Nat.mod_pow_succ,
      hd]
    ring_nf

/-- A big-endian number is read back. -/
theorem loadBigEndian_of_drop {data r : Bytes} {pos count x : ℕ}
    (h : data.drop pos = bigEndian count x ++ r) (hcount : count ≤ 8) (hx : x < 256 ^ count) :
    loadBigEndian data pos count = some x := by
  rw [loadBigEndian, loadBigEndianFrom_of_drop h, Nat.mod_eq_of_lt hx, Nat.zero_mul, Nat.zero_add]
  calc (0 + 1) * 256 ^ count = 256 ^ count := Nat.one_mul _
    _ ≤ 256 ^ 8 := Nat.pow_le_pow_right (by decide) hcount
    _ = 2 ^ 64 := by norm_num

/-- **Every encoding reads back**, if it has room for the instant. -/
theorem timestampFromExt_timestampExt {ns : ℕ} (hns : ns < 2 ^ 64) {form : TimestampForm}
    (hform : form.Holds ns) : timestampFromExt (timestampExt ns form) = ns := by
  have hsome : ∀ data, some (timestampFromExt data) = timestampFromExt? data := fun data ↦
    Option.some_get _
  have hmod := Nat.mod_lt ns (show 0 < nanosPerSecond by decide)
  have hsum := Nat.div_add_mod' ns nanosPerSecond
  have hdiv : ns / nanosPerSecond < 2 ^ 35 := by
    rw [nanosPerSecond]
    omega
  have hhead : (timestampExt ns form)[0]? = some 0xFF := by cases form <;> rfl
  rw [← Option.some_inj, hsome, timestampFromExt?, hhead]
  cases form with
  -- no nanoseconds, and seconds in 32 bits
  | timestamp32 =>
    obtain ⟨hwhole, hseconds⟩ := hform
    have hlen : (timestampExt ns .timestamp32).length = 5 := by
      rw [timestampExt, List.length_cons, length_bigEndian]
    have hload := loadBigEndian_of_drop (show (timestampExt ns .timestamp32).drop 1 = _ from
      (List.append_nil _).symm) (by decide) hseconds
    rw [hwhole, Nat.add_zero] at hsum
    simp only [hlen, hload]
    simp [hsum, u64_of_lt hns]
  -- 30 bits of nanoseconds above 34 bits of seconds
  | timestamp64 =>
    have hseconds : ns / nanosPerSecond < 2 ^ 34 := hform
    have hnanos : ns % nanosPerSecond < 2 ^ 30 := hmod.trans (by decide)
    have hlen : (timestampExt ns .timestamp64).length = 9 := by
      rw [timestampExt, List.length_cons, length_bigEndian]
    have hload := loadBigEndian_of_drop (show (timestampExt ns .timestamp64).drop 1 = _ from
      (List.append_nil _).symm) (by decide) (by omega)
    have hlow : (ns % nanosPerSecond * 2 ^ 34 + ns / nanosPerSecond) &&& 0x3FFFFFFFF =
        ns / nanosPerSecond := mul_two_pow_add_and hseconds _
    have hhigh : (ns % nanosPerSecond * 2 ^ 34 + ns / nanosPerSecond) >>> 34 =
        ns % nanosPerSecond := mul_two_pow_add_shiftRight hseconds _
    simp only [hlen, hload, Option.bind_eq_bind, Option.bind_some, hlow, hhigh, hsum, u64_of_lt hns]
    rfl
  -- nanoseconds first, then seconds as a signed 64-bit count
  | timestamp96 =>
    have hlen : (timestampExt ns .timestamp96).length = 13 := by
      rw [timestampExt, List.length_append, List.length_cons, length_bigEndian, length_bigEndian]
    have hnanos := loadBigEndian_of_drop (show (timestampExt ns .timestamp96).drop 1 = _ from rfl)
      (by decide) (x := ns % nanosPerSecond) (hmod.trans (by decide))
    have hseconds := loadBigEndian_of_drop (show (timestampExt ns .timestamp96).drop 5 = _ from
      (List.append_nil _).symm) (by decide) (x := ns / nanosPerSecond) (hdiv.trans (by decide))
    have hword : int64OfWord (ns / nanosPerSecond) = (ns / nanosPerSecond : ℕ) :=
      if_pos (hdiv.trans (by decide))
    have hcast : castU64 (ns / nanosPerSecond : ℕ) = ns / nanosPerSecond :=
      Nat.cast_inj.1 (castU64_of_nonneg (Int.natCast_nonneg _)
        (Int.ofNat_lt.2 (hdiv.trans (by decide))))
    simp only [hlen, hnanos, hseconds, Option.bind_eq_bind, Option.bind_some, hword, hcast, hsum,
      u64_of_lt hns, if_neg (Int.not_lt.2 (Int.natCast_nonneg _))]
    rfl

/-! ### Messages

One list of named values, with two ways to put it on the wire. A value of JSON has no float of single
precision and no extension, so these are the places where the two forms differ. -/

variable {D : Type}

/-- A value of a message, before it is packed or written. -/
inductive WireValue (D : Type) where
  | null
  | text (s : Bytes)
  | texts (l : List Bytes)
  | integer (n : ℤ)
  | float32 (x : D)
  | float64 (x : D)
  | instant (ns : UInt64) (form : TimestampForm)
  /-- A value of any other kind, in both forms. -/
  | other (packed : Frame D) (json : Json D)

namespace WireValue

/-- A value in MessagePack. -/
def pack : WireValue D → Frame D
  | null => .scalar .nil
  | text s => .scalar (.str s)
  | texts l => .array (l.map fun s ↦ .scalar (.str s))
  | integer n =>
    if 0 ≤ n then .scalar (.positiveInteger (UInt64.ofNat n.toNat))
    else .scalar (.negativeInteger (Int64.ofInt n))
  | float32 x => .scalar (.float32 x)
  | float64 x => .scalar (.float64 x)
  | instant ns form => .scalar (.ext (timestampExt ns.toNat form))
  | other packed _ => packed

/-- A value in JSON. -/
def json : WireValue D → Json D
  | null => .null
  | text s => .str s
  | texts l => .arr (l.map .str)
  | integer n => .int n
  | float32 x => .float x
  | float64 x => .float x
  | instant ns _ => .str (toRfc3339 ns.toNat)
  | other _ json => json

end WireValue

/-- A message: fields with distinct string names, in the order in which they are packed. -/
structure WireMessage (D : Type) where
  entries : List (Bytes × WireValue D)
  nodup : (entries.map Prod.fst).Nodup

namespace WireMessage

/-- The field with a name. -/
def get (m : WireMessage D) (key : Bytes) : Option (WireValue D) := m.entries.lookup key

/-- The entries of the packed map. -/
def pack (m : WireMessage D) : Entries D := m.entries.map fun e ↦ (.scalar (.str e.1), e.2.pack)

/-- The object that is written. -/
def json (m : WireMessage D) : Json D :=
  .obj (m.entries.foldl (fun members e ↦ Json.setMember e.1 e.2.json members) [])

/-- A fold in which each field only acts under its own name, seen under one name. -/
theorem foldl_lookup {V σ α : Type} {fields : List (Bytes × V)} (hnodup : (fields.map Prod.fst).Nodup)
    (key : Bytes) (step : σ → Bytes × V → σ) (view : σ → α) (act : V → α → α)
    (hstep : ∀ s e, view (step s e) = if key = e.1 then act e.2 (view s) else view s) (s : σ) :
    view (fields.foldl step s) = (fields.lookup key).elim (view s) fun v ↦ act v (view s) := by
  induction fields generalizing s with
  | nil => rfl
  | cons e fields ih =>
    obtain ⟨k, v⟩ := e
    rw [List.map_cons, List.nodup_cons] at hnodup
    rw [List.foldl_cons, ih hnodup.2, hstep, List.lookup_cons]
    split_ifs with hkey
    · obtain rfl : key = k := hkey
      have hnone : fields.lookup key = none := by
        rw [List.lookup_eq_none_iff]
        rintro ⟨k', v'⟩ hmem
        rw [bne_iff_ne]
        rintro rfl
        exact hnodup.1 (List.mem_map.2 ⟨_, hmem, rfl⟩)
      rw [hnone, beq_self_eq_true]
      rfl
    · rw [beq_eq_false_iff_ne.2 hkey]

/-- Writing keeps every field. -/
theorem member?_json (m : WireMessage D) (key : Bytes) :
    m.json.member? key = (m.get key).map WireValue.json := by
  have hfold := foldl_lookup m.nodup key (fun members e ↦ Json.setMember e.1 e.2.json members)
    (fun members ↦ members.lookup key) (fun v _ ↦ some v.json)
    (fun members e ↦ Json.lookup_setMember e.1 key e.2.json members) []
  rw [json, Json.member?, hfold, get]
  rcases m.entries.lookup key with - | v <;> rfl

/-- A slot of a packed message looks at one field. -/
theorem lastAccepted_pack (m : WireMessage D) {α : Type} (key : Bytes) (accept : Frame D → Option α)
    (default : α) : lastAccepted key accept default m.pack =
      (m.get key).elim default fun v ↦ (accept v.pack).getD default := by
  rw [lastAccepted, pack, List.foldl_map, get]
  refine foldl_lookup m.nodup key _ id (fun v acc ↦ (accept v.pack).getD acc) (fun acc e ↦ ?_) default
  simp only [slotStep, isKey, decide_eq_true_eq, eq_comm (a := key), id_eq]

end WireMessage

/-! ### Documented types

Only messages whose fields have these types are compared. For others the two readers disagree, as each has
its own idea of what to do with a value of the wrong type. -/

/-- The type the documentation gives a field of an option message. -/
inductive WireType where
  | text | instant | number | code | conditions | list
  deriving DecidableEq

/-- Holding the documented type, or null. -/
def WireType.Accepts (v : WireValue D) : WireType → Prop
  | text => v = .null ∨ ∃ s, v = .text s
  | instant => v = .null ∨ ∃ ns form, form.Holds ns.toNat ∧ v = .instant ns form
  | number => v = .null ∨ (∃ n, -2 ^ 63 ≤ n ∧ n < 2 ^ 64 ∧ v = .integer n) ∨
      ∃ x, v = .float32 x ∨ v = .float64 x
  | code => v = .null ∨ ∃ n, -2 ^ 31 ≤ n ∧ n < 2 ^ 31 ∧ v = .integer n
  | conditions => v = .null ∨ (∃ s, v = .text s) ∨ ∃ l, v = .texts l
  | list => v = .null ∨ ∃ l, v = .texts l

/-- A field that holds its documented type, if it is there. -/
def WireMessage.Holds (m : WireMessage D) (key : Bytes) (type : WireType) : Prop :=
  ∀ v, m.get key = some v → type.Accepts v

/-! ### Both readers

One lemma for each type. Null and a missing field are the same for both: the default stays. -/

/-- A list of strings, as JSON -/
theorem getStrings_texts (l : List Bytes) : (Json.arr (l.map .str) : Json D).getStrings = .ok l := by
  rw [Json.getStrings]
  induction l with
  | nil => rfl
  | cons s l ih =>
    rw [List.map_cons, List.mapM_cons, ih]
    rfl

/-- A packed list of strings. -/
theorem strings_texts (l : List Bytes) :
    strings (l.map fun s ↦ (.scalar (.str s) : Frame D)) = l := by
  induction l with
  | nil => rfl
  | cons s l ih => exact congrArg (s :: ·) ih

namespace WireMessage

variable {m : WireMessage D} {key : Bytes}

/-- **Texts** are read the same. -/
theorem text_agree (h : m.Holds key .text) :
    (m.json.variableAt key Json.getString).getD [] = lastAccepted key asText [] m.pack := by
  rw [lastAccepted_pack, Json.variableAt, member?_json]
  rcases hget : m.get key with - | v
  · rfl
  · rcases h v hget with rfl | ⟨s, rfl⟩ <;> rfl

/-- **Lists** of texts are read the same. -/
theorem list_agree (h : m.Holds key .list) :
    (m.json.variableAt key Json.getStrings).getD [] = lastAccepted key asList [] m.pack := by
  rw [lastAccepted_pack, Json.variableAt, member?_json]
  rcases hget : m.get key with - | v
  · rfl
  · rcases h v hget with rfl | ⟨l, rfl⟩
    · rfl
    · simp [WireValue.json, WireValue.pack, Json.isNull, asList, getStrings_texts, strings_texts,
        Except.toOption]

/-- **Conditions** are, which may be one text or several. -/
theorem conditions_agree (h : m.Holds (bytes "c") .conditions) :
    m.json.conditionsAt.getD [] = lastAccepted (bytes "c") asConditions [] m.pack := by
  rw [lastAccepted_pack, Json.conditionsAt, member?_json]
  rcases hget : m.get (bytes "c") with - | v
  · rfl
  · rcases h v hget with rfl | ⟨s, rfl⟩ | ⟨l, rfl⟩
    · rfl
    · rfl
    · simp [WireValue.json, WireValue.pack, asConditions, getStrings_texts, strings_texts,
        Except.toOption]

/-- **Instants** are, in any encoding. -/
theorem instant_agree (h : m.Holds key .instant) :
    (m.json.timestampAt key).getD 0 = lastAccepted key asTimestamp 0 m.pack := by
  rw [lastAccepted_pack, Json.timestampAt, member?_json]
  rcases hget : m.get key with - | v
  · rfl
  · rcases h v hget with rfl | ⟨ns, form, hform, rfl⟩
    · rfl
    · simp only [WireValue.json, WireValue.pack, asTimestamp, Option.map_some, Option.elim_some,
        Option.getD_some, toNanoseconds_toRfc3339 ns.toNat_lt,
        timestampFromExt_timestampExt ns.toNat_lt hform]

/-- Instants are written as text. -/
theorem dated_json (h : m.Holds key .instant) : m.json.Dated key := by
  intro v hv
  rw [member?_json] at hv
  obtain ⟨w, hw, rfl⟩ := Option.map_eq_some_iff.1 hv
  rcases h w hw with rfl | ⟨ns, form, -, rfl⟩
  · exact Or.inl rfl
  · exact Or.inr rfl

/-- Condition codes are written as text. -/
theorem textConditions_json (h : m.Holds (bytes "c") .conditions) : m.json.TextConditions := by
  intro elems helems
  rw [member?_json] at helems
  obtain ⟨w, hw, hjson⟩ := Option.map_eq_some_iff.1 helems
  rcases h w hw with rfl | ⟨s, rfl⟩ | ⟨l, rfl⟩
  · exact absurd hjson (by simp [WireValue.json])
  · exact absurd hjson (by simp [WireValue.json])
  · obtain rfl := Json.arr.inj hjson
    simp [Json.isString]

section Numbers

variable (lib : JsonLibrary D)

/-- **Numbers** are, as integers or doubles. -/
theorem number_agree [Doubles D] (h : m.Holds key .number) :
    (doubleAt lib m.json key).getD DoubleCasts.zero =
      lastAccepted key asNumber DoubleCasts.zero m.pack := by
  rw [lastAccepted_pack, doubleAt, member?_json]
  rcases hget : m.get key with - | v
  · rfl
  · rcases h v hget with rfl | ⟨n, -, -, rfl⟩ | ⟨x, rfl | rfl⟩
    · rfl
    · -- MessagePack and JSON both keep negative integers apart
      show Json.intToDouble n = (asNumber (WireValue.integer n).pack).getD DoubleCasts.zero
      rw [Json.intToDouble, WireValue.pack]
      split <;> rfl
    · rfl
    · rfl

/-- **Codes** are. -/
theorem code_agree [DoubleCasts D] [LawfulDoubleCasts D] (h : m.Holds key .code) :
    (intAt lib m.json key).getD 0 = (lastAccepted key asCode 0 m.pack).toInt := by
  rw [lastAccepted_pack, intAt, member?_json]
  rcases hget : m.get key with - | v
  · rfl
  · rcases h v hget with rfl | ⟨n, hlo, hhi, rfl⟩
    · rfl
    · show n.bmod (2 ^ 64) = ((asCode (WireValue.integer n).pack).getD 0).toInt
      rw [Int.bmod_eq_of_le (by omega) (by omega), WireValue.pack]
      split_ifs with hn
      · have hnat : (UInt64.ofNat n.toNat).toNat = n.toNat :=
          UInt64.toNat_ofNat_of_lt' (show n.toNat < 2 ^ 64 by omega)
        have hcast := LawfulDoubleCasts.toInt64_ofUInt64 (D := D) (UInt64.ofNat n.toNat) (by omega)
        show n = (DoubleCasts.toInt64 (DoubleCasts.ofUInt64 (UInt64.ofNat n.toNat) : D)).toInt
        omega
      · have hint : (Int64.ofInt n).toInt = n := Int64.toInt_ofInt_of_le (by omega) (by omega)
        show n = (DoubleCasts.toInt64 (DoubleCasts.ofInt64 (Int64.ofInt n) : D)).toInt
        rw [LawfulDoubleCasts.toInt64_ofInt64 _ (by omega), hint]

end Numbers

end WireMessage

/-! ### Kinds of messages -/

/-- The messages of an option stream. -/
inductive MessageKind where
  | trade | quote | success | error | subscription
  deriving DecidableEq

namespace MessageKind

/-- What a message of a kind holds under `T`. -/
def type : MessageKind → Bytes
  | trade => bytes "t"
  | quote => bytes "q"
  | success => bytes "success"
  | error => bytes "error"
  | subscription => bytes "subscription"

/-- The documented fields of a kind, `T` apart. -/
def fields : MessageKind → List (Bytes × WireType)
  | trade => [(bytes "S", .text), (bytes "t", .instant), (bytes "p", .number), (bytes "s", .number),
      (bytes "x", .text), (bytes "c", .conditions)]
  | quote => [(bytes "S", .text), (bytes "t", .instant), (bytes "bx", .text), (bytes "bp", .number),
      (bytes "bs", .number), (bytes "ax", .text), (bytes "ap", .number), (bytes "as", .number),
      (bytes "c", .conditions)]
  | success => [(bytes "msg", .text)]
  | error => [(bytes "code", .code), (bytes "msg", .text)]
  | subscription => [(bytes "trades", .list), (bytes "quotes", .list)]

/-- A message of a kind, whose documented fields hold their types as far as they are there. -/
structure WellTyped (kind : MessageKind) (m : WireMessage D) : Prop where
  type_eq : m.get (bytes "T") = some (.text kind.type)
  holds : ∀ f ∈ kind.fields, m.Holds f.1 f.2

end MessageKind

end Alpaca
